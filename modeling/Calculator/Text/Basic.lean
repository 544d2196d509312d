/-!
# Texts

A text is the list of its code points, so every length, index and cut counts code points.  This
module holds the operations on texts that the calculator needs and core does not have: replacing
each occurrence of a pattern (`replaceAll`), cutting at the last occurrence of a separator
(`splitLast?`), cutting at the first occurrence of a character (`splitFirst?`), trimming at both
ends (`trim`), the decimal spelling of an integer (`ofNat`, `ofInt`) and the number of bytes
(`utf8Size`).
-/

namespace Calculator

/-- A text is the list of its code points. -/
abbrev Text := List Char

namespace Text

/-! ### Numbers and lists of texts -/

/-- The decimal digits of `n`, without leading zeros. -/
def ofNat (n : Nat) : Text := Nat.toDigits 10 n

/-- The decimal digits of `n` behind a minus sign where `n` is negative. -/
def ofInt (n : Int) : Text :=
  if n < 0 then '-' :: ofNat n.natAbs else ofNat n.natAbs

/-- The texts in order, with `separator` between neighbours. -/
def join (separator : Text) : List Text → Text
  | [] => []
  | [t] => t
  | t :: u :: rest => t ++ separator ++ join separator (u :: rest)

@[simp] theorem join_nil (separator : Text) : join separator [] = [] := rfl

@[simp] theorem join_singleton (separator t : Text) : join separator [t] = t := rfl

/-- How many bytes the text takes in UTF-8. -/
def utf8Size (s : Text) : Nat := s.foldl (fun size c => size + c.utf8Size) 0

/-! ### Patterns -/

/-- Whether `pattern` stands somewhere in a text, without a gap. -/
def occursIn (pattern : Text) : Text → Bool
  | [] => pattern.isEmpty
  | c :: rest => pattern.isPrefixOf (c :: rest) || occursIn pattern rest

/-- The scan behind `replaceAll` for a pattern that is not empty: `skip` characters are still
covered by the occurrence that was replaced last. -/
def replaceFrom (pattern replacement : Text) : (skip : Nat) → Text → Text
  | _, [] => []
  | skip + 1, _ :: rest => replaceFrom pattern replacement skip rest
  | 0, c :: rest =>
    if pattern.isPrefixOf (c :: rest) then
      replacement ++ replaceFrom pattern replacement (pattern.length - 1) rest
    else
      c :: replaceFrom pattern replacement 0 rest

/-- The text with every occurrence of `pattern` replaced, found from left to right without
overlap.  The empty pattern occurs before every character and once more at the end. -/
def replaceAll (s pattern replacement : Text) : Text :=
  if pattern.isEmpty then
    replacement ++ s.flatMap fun c => c :: replacement
  else
    replaceFrom pattern replacement 0 s

/-- What stands before and after the last occurrence of a `separator` that is not empty. -/
def splitLast? : Text → (separator : Text) → Option (Text × Text)
  | [], _ => none
  | c :: rest, separator =>
    match splitLast? rest separator with
    | some (before, after) => some (c :: before, after)
    | none =>
      if separator.isPrefixOf (c :: rest) then
        some ([], (c :: rest).drop separator.length)
      else
        none

/-- What stands before and after the first character that satisfies `p`. -/
def splitFirst? (p : Char → Bool) : Text → Option (Text × Text)
  | [] => none
  | c :: rest =>
    if p c then some ([], rest)
    else (splitFirst? p rest).map fun (before, after) => (c :: before, after)

/-! ### Trimming -/

/-- The text without the characters at its end that satisfy `p`. -/
def trimEnd (p : Char → Bool) (s : Text) : Text := (s.reverse.dropWhile p).reverse

/-- The text without the characters at either end that satisfy `p`. -/
def trim (p : Char → Bool) (s : Text) : Text := trimEnd p (s.dropWhile p)

end Text

end Calculator
