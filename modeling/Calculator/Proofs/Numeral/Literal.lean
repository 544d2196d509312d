import Calculator.Binary64.Numeral
import Calculator.Token.Lexeme
import Mathlib.Data.List.TakeWhile

/-!
# Numbers as they stand in expressions

A number of an expression is a run of decimal digits and points, with no sign, blank or exponent.
`Binary64.ofText?_of_isNumberChar` says what becomes of such a run: it has no value if it is
malformed, that is if it has no digit or more than one point, and otherwise all its digits are read
exactly, those behind the point as decimal places, and rounded once (`literalValue`).
-/

namespace Calculator

/-- A run of digits and points that is no number: it has no digit, or more than one point. -/
def isMalformed (run : Text) : Bool := !run.any isDecimalDigit || decide (2 ≤ run.count '.')

/-- The digits of a run, in order. -/
def digitsOf (run : Text) : List Nat := run.filterMap decimalDigit?

/-- How many digits of a run stand behind its first point. -/
def placesOf (run : Text) : Nat := (digitsOf (run.dropWhile (· ≠ '.'))).length

/-- The nearest number to what a run of digits and points denotes. -/
def literalValue (run : Text) : Binary64 :=
  .ofDecimal false (digitsValue (digitsOf run)) (-(placesOf run : Int))

/-! ### Characters of numbers -/

/-- The row of a digit starts at the ASCII digits or behind the Latin letters, and holds no
blank. -/
theorem decimalZeros_spec : ∀ z ∈ decimalZeros,
    z = 0x30 ∨ (0x660 ≤ z ∧ z + 10 ≤ 0x1680) ∨ (0x1681 ≤ z ∧ z + 10 ≤ 0x2000) ∨ 0x3001 ≤ z := by
  decide

theorem toNat_of_isDecimalDigit {c : Char} (hc : isDecimalDigit c = true) :
    (0x30 ≤ c.toNat ∧ c.toNat < 0x3A) ∨ (0x660 ≤ c.toNat ∧ c.toNat < 0x1680) ∨
      (0x1681 ≤ c.toNat ∧ c.toNat < 0x2000) ∨ 0x3001 ≤ c.toNat := by
  obtain ⟨d, hd⟩ := Option.isSome_iff_exists.mp hc
  obtain ⟨z, hz, h⟩ := List.exists_of_findSome?_eq_some hd
  split at h
  · have := decimalZeros_spec z hz
    omega
  · simp at h

/-- Digits and points are far from blanks, signs and letters. -/
theorem toNat_of_isNumberChar {c : Char} (hc : isNumberChar c = true) :
    (0x2E ≤ c.toNat ∧ c.toNat < 0x3A) ∨ (0x660 ≤ c.toNat ∧ c.toNat < 0x1680) ∨
      (0x1681 ≤ c.toNat ∧ c.toNat < 0x2000) ∨ 0x3001 ≤ c.toNat := by
  rcases (Bool.or_eq_true _ _).mp hc with h | h
  · have := toNat_of_isDecimalDigit h
    omega
  · obtain rfl : c = '.' := by simpa using h
    decide

theorem isBlank_of_isNumberChar {c : Char} (hc : isNumberChar c = true) : isBlank c = false := by
  have := toNat_of_isNumberChar hc
  simp only [isBlank, Bool.or_eq_false_iff, Bool.and_eq_false_iff, decide_eq_false_iff_not,
    beq_eq_false_iff_ne]
  omega

theorem ne_of_isNumberChar {c x : Char} (hc : isNumberChar c = true)
    (hx : isNumberChar x = false) : c ≠ x := by
  rintro rfl
  simp [hx] at hc

/-- The point is no digit. -/
@[simp] theorem decimalDigit?_point : decimalDigit? '.' = none := by decide

theorem isDecimalDigit_of_ne_point {c : Char} (hc : isNumberChar c = true) (hne : c ≠ '.') :
    isDecimalDigit c = true := by
  simpa [isNumberChar, hne] using hc

/-! ### Digits of a run -/

@[simp] theorem digitsOf_nil : digitsOf [] = [] := rfl

@[simp] theorem digitsOf_append (a b : Text) : digitsOf (a ++ b) = digitsOf a ++ digitsOf b :=
  List.filterMap_append

@[simp] theorem digitsOf_point (run : Text) : digitsOf ('.' :: run) = digitsOf run :=
  List.filterMap_cons_none decimalDigit?_point

theorem any_isDecimalDigit (run : Text) : run.any isDecimalDigit = !(digitsOf run).isEmpty := by
  induction run with
  | nil => rfl
  | cons c rest ih =>
    cases hc : decimalDigit? c <;> simp [digitsOf, isDecimalDigit, hc] at ih ⊢
    exact ih

namespace Numeral

/-- A run of digits gives them all; only an empty run needs a digit before it. -/
theorem digitRun?_of_isDecimalDigit {run : Text} (h : ∀ c ∈ run, isDecimalDigit c = true)
    (afterDigit : Bool) :
    digitRun? afterDigit run =
      if afterDigit || !run.isEmpty then some (digitsOf run) else none := by
  induction run generalizing afterDigit with
  | nil => cases afterDigit <;> rfl
  | cons c rest ih =>
    obtain ⟨hc, hrest⟩ := List.forall_mem_cons.mp h
    obtain ⟨d, hd⟩ := Option.isSome_iff_exists.mp hc
    simp [digitRun?, hd, ih hrest, digitsOf]

theorem digits?_of_isDecimalDigit {run : Text} (h : ∀ c ∈ run, isDecimalDigit c = true) :
    digits? run = some (digitsOf run) := by
  cases run with
  | nil => rfl
  | cons c rest => simp [digits?, digitRun?_of_isDecimalDigit h]

/-- No run of digits holds a point. -/
theorem digitRun?_of_mem_point {run : Text} (h : '.' ∈ run) (afterDigit : Bool) :
    digitRun? afterDigit run = none := by
  induction run generalizing afterDigit with
  | nil => simp at h
  | cons c rest ih =>
    by_cases hc : c = '.'
    · subst hc
      simp [digitRun?]
    · have hrest : '.' ∈ rest := by simpa [Ne.symm hc] using h
      rw [digitRun?]
      cases decimalDigit? c <;> simp [ih hrest]

end Numeral

theorem Text.splitFirst?_eq_none {p : Char → Bool} {s : Text} (h : ∀ c ∈ s, p c = false) :
    s.splitFirst? p = none := by
  induction s with
  | nil => rfl
  | cons c rest ih =>
    obtain ⟨hc, hrest⟩ := List.forall_mem_cons.mp h
    simp [splitFirst?, hc, ih hrest]

theorem Text.splitFirst?_append {p : Char → Bool} {before : Text} (h : ∀ c ∈ before, p c = false)
    {c : Char} (hc : p c = true) (behind : Text) :
    Text.splitFirst? p (before ++ c :: behind) = some (before, behind) := by
  induction before with
  | nil => simp [splitFirst?, hc]
  | cons x rest ih =>
    obtain ⟨hx, hrest⟩ := List.forall_mem_cons.mp h
    simp [splitFirst?, hx, ih hrest]

/-! ### Reading a run -/

/-- A run without a point is a run of digits, and one with a point starts with a run of digits. -/
theorem forall_isDecimalDigit {run : Text} (h : ∀ c ∈ run, isNumberChar c = true)
    (hpoint : '.' ∉ run) : ∀ c ∈ run, isDecimalDigit c = true :=
  fun c hc => isDecimalDigit_of_ne_point (h c hc) fun heq => hpoint (heq ▸ hc)

theorem placesOf_of_notMem {run : Text} (h : '.' ∉ run) : placesOf run = 0 := by
  have hdrop : run.dropWhile (· ≠ '.') = [] := by
    rw [List.dropWhile_eq_nil_iff]
    intro c hc
    simpa using fun heq : c = '.' => h (heq ▸ hc)
  rw [placesOf, hdrop]
  rfl

theorem placesOf_append {before : Text} (h : '.' ∉ before) (behind : Text) :
    placesOf (before ++ '.' :: behind) = (digitsOf behind).length := by
  have hall : ∀ c ∈ before, decide (c ≠ '.') = true := by
    intro c hc
    simpa using fun heq : c = '.' => h (heq ▸ hc)
  rw [placesOf, List.dropWhile_append_of_pos hall, List.dropWhile_cons_of_neg (by simp),
    digitsOf_point]

/-! ### Malformed runs -/

theorem count_point_append {before : Text} (h : '.' ∉ before) (behind : Text) :
    (before ++ '.' :: behind).count '.' = behind.count '.' + 1 := by
  rw [List.count_append, List.count_eq_zero_of_not_mem h, List.count_cons_self, Nat.zero_add]

theorem isMalformed_of_notMem {run : Text} (hne : run ≠ []) (h : ∀ c ∈ run, isNumberChar c = true)
    (hpoint : '.' ∉ run) : isMalformed run = false := by
  obtain ⟨c, hc⟩ := List.exists_mem_of_ne_nil run hne
  have hany : run.any isDecimalDigit = true :=
    List.any_eq_true.mpr ⟨c, hc, forall_isDecimalDigit h hpoint c hc⟩
  simp [isMalformed, hany, List.count_eq_zero_of_not_mem hpoint]

/-- A run with one point is malformed if there is no digit on either side. -/
theorem isMalformed_append_of_notMem {before behind : Text} (hbefore : '.' ∉ before)
    (hbehind : '.' ∉ behind) :
    isMalformed (before ++ '.' :: behind) =
      ((digitsOf before).isEmpty && (digitsOf behind).isEmpty) := by
  rw [isMalformed, count_point_append hbefore, List.count_eq_zero_of_not_mem hbehind,
    any_isDecimalDigit, digitsOf_append, digitsOf_point]
  cases digitsOf before <;> simp

theorem isMalformed_append_of_mem {before behind : Text} (hbefore : '.' ∉ before)
    (hbehind : '.' ∈ behind) : isMalformed (before ++ '.' :: behind) = true := by
  have hpos : 0 < behind.count '.' := List.count_pos_iff.mpr hbehind
  have hcount : 2 ≤ (before ++ '.' :: behind).count '.' := by
    rw [count_point_append hbefore]
    omega
  simp only [isMalformed, Bool.or_eq_true, decide_eq_true_eq]
  exact .inr hcount

namespace Numeral

theorem splitFirst?_point {before : Text} (h : '.' ∉ before) (behind : Text) :
    Text.splitFirst? (· = '.') (before ++ '.' :: behind) = some (before, behind) := by
  apply Text.splitFirst?_append
  · intro c hc
    have hne : c ≠ '.' := fun heq => h (heq ▸ hc)
    simp [hne]
  · simp

theorem mantissa?_of_notMem {run : Text} (hne : run ≠ []) (h : ∀ c ∈ run, isNumberChar c = true)
    (hpoint : '.' ∉ run) : mantissa? run = some (digitsOf run, placesOf run) := by
  have hsplit : Text.splitFirst? (· = '.') run = none := by
    apply Text.splitFirst?_eq_none
    intro c hc
    have hne : c ≠ '.' := fun heq => hpoint (heq ▸ hc)
    simp [hne]
  have hempty : run.isEmpty = false := by simpa using hne
  have hdigits := digitRun?_of_isDecimalDigit (forall_isDecimalDigit h hpoint) false
  simp [mantissa?, hsplit, placesOf_of_notMem hpoint, hempty, hdigits]

/-- A second point keeps what stands behind the first one from being read. -/
theorem mantissa?_append_of_mem {before behind : Text} (hbefore : '.' ∉ before)
    (hbehind : '.' ∈ behind) : mantissa? (before ++ '.' :: behind) = none := by
  have hnone : digits? behind = none := by
    rw [digits?, if_neg (by simpa using List.ne_nil_of_mem hbehind)]
    exact digitRun?_of_mem_point hbehind false
  rw [mantissa?, splitFirst?_point hbefore]
  simp [hnone]

/-- The digits on both sides of a single point are read, and there must be one at least. -/
theorem mantissa?_append_of_notMem {before behind : Text} (hbefore : '.' ∉ before)
    (hbehind : '.' ∉ behind) (h : ∀ c ∈ before, isDecimalDigit c = true)
    (h' : ∀ c ∈ behind, isDecimalDigit c = true) :
    mantissa? (before ++ '.' :: behind) =
      if isMalformed (before ++ '.' :: behind) then none
      else some (digitsOf (before ++ '.' :: behind), placesOf (before ++ '.' :: behind)) := by
  rw [mantissa?, splitFirst?_point hbefore]
  simp [digits?_of_isDecimalDigit h, digits?_of_isDecimalDigit h',
    isMalformed_append_of_notMem hbefore hbehind, placesOf_append hbefore]

/-- The mantissa of a run is its digits and places, unless the run is malformed. -/
theorem mantissa?_of_isNumberChar {run : Text} (hne : run ≠ [])
    (h : ∀ c ∈ run, isNumberChar c = true) :
    mantissa? run = if isMalformed run then none else some (digitsOf run, placesOf run) := by
  by_cases hpoint : '.' ∈ run
  · obtain ⟨before, behind, rfl, hbefore⟩ := List.eq_append_cons_of_mem hpoint
    by_cases hbehind : '.' ∈ behind
    · have hmalformed := isMalformed_append_of_mem hbefore hbehind
      rw [mantissa?_append_of_mem hbefore hbehind, if_pos hmalformed]
    · have hdigits : ∀ c ∈ before, isDecimalDigit c = true :=
        forall_isDecimalDigit (fun c hc => h c (by simp [hc])) hbefore
      have hdigits' : ∀ c ∈ behind, isDecimalDigit c = true :=
        forall_isDecimalDigit (fun c hc => h c (by simp [hc])) hbehind
      exact mantissa?_append_of_notMem hbefore hbehind hdigits hdigits'
  · have hmalformed : isMalformed run = false := isMalformed_of_notMem hne h hpoint
    rw [mantissa?_of_notMem hne h hpoint, hmalformed]
    rfl

/-- A run has no exponent. -/
theorem ofText?_of_isNumberChar {run : Text} (hne : run ≠ [])
    (h : ∀ c ∈ run, isNumberChar c = true) :
    ofText? run = if isMalformed run then none else some ⟨digitsOf run, placesOf run, 0⟩ := by
  have hsplit : Text.splitFirst? (fun c => c = 'e' ∨ c = 'E') run = none := by
    apply Text.splitFirst?_eq_none
    intro c hc
    have he := ne_of_isNumberChar (h c hc) (x := 'e') (by decide)
    have hE := ne_of_isNumberChar (h c hc) (x := 'E') (by decide)
    simp [he, hE]
  rw [ofText?, hsplit]
  simp only [mantissa?_of_isNumberChar hne h]
  cases isMalformed run <;> rfl

theorem value_eq_ofDecimal (digits : List Nat) (places : Nat) (negative : Bool) :
    value ⟨digits, places, 0⟩ negative =
      .ofDecimal negative (digitsValue digits) (-(places : Int)) := by
  have hexp : boundedExponent ⟨digits, places, 0⟩ = 0 := by
    simp only [boundedExponent]
    omega
  rw [value, hexp, Int.zero_sub]

end Numeral

/-- Nothing is trimmed off a run. -/
theorem Text.trim_eq_self {p : Char → Bool} {s : Text} (h : ∀ c ∈ s, p c = false) :
    s.trim p = s := by
  have hdrop (t : Text) (ht : ∀ c ∈ t, p c = false) : t.dropWhile p = t := by
    cases t with
    | nil => rfl
    | cons c rest => simp [ht c (by simp)]
  rw [trim, trimEnd, hdrop s h, hdrop s.reverse (by simpa using h), List.reverse_reverse]

/-- A run has no sign. -/
theorem Numeral.splitSign_of_isNumberChar {run : Text} (h : ∀ c ∈ run, isNumberChar c = true) :
    splitSign run = (false, run) := by
  cases run with
  | nil => rfl
  | cons c rest =>
    have hc := h c (by simp)
    have hminus := ne_of_isNumberChar hc (x := '-') (by decide)
    have hplus := ne_of_isNumberChar hc (x := '+') (by decide)
    simp [splitSign, hminus, hplus]

/-- A run is no word. -/
theorem Binary64.named?_of_isNumberChar {run : Text} (hne : run ≠ [])
    (h : ∀ c ∈ run, isNumberChar c = true) (negative : Bool) : named? negative run = none := by
  cases run with
  | nil => exact absurd rfl hne
  | cons c rest =>
    have hc := toNat_of_isNumberChar (h c (by simp))
    have hupper : ¬(c.val ≥ 'A'.val ∧ c.val ≤ 'Z'.val) := by
      intro h
      have : 0x41 ≤ c.toNat ∧ c.toNat ≤ 0x5A := h
      omega
    have hlower : c.toLower = c := dif_neg hupper
    have hi := ne_of_isNumberChar (h c (by simp)) (x := 'i') (by decide)
    have hn := ne_of_isNumberChar (h c (by simp)) (x := 'n') (by decide)
    simp [named?, hlower, hi, hn]

/-- **What becomes of a run of digits and points**: it has no value if it is malformed, and else
the nearest number to what it denotes. -/
theorem Binary64.ofText?_of_isNumberChar {run : Text} (hne : run ≠ [])
    (h : ∀ c ∈ run, isNumberChar c = true) :
    ofText? run = if isMalformed run then none else some (literalValue run) := by
  have htrim : run.trim isNumberPadding = run :=
    Text.trim_eq_self fun c hc => by simp [isNumberPadding, isBlank_of_isNumberChar (h c hc)]
  simp only [ofText?, htrim, Numeral.splitSign_of_isNumberChar h, named?_of_isNumberChar hne h,
    Numeral.ofText?_of_isNumberChar hne h]
  cases isMalformed run <;> simp [Numeral.value_eq_ofDecimal, literalValue]

end Calculator
