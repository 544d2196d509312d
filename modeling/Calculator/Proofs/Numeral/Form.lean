import Calculator.Proofs.Binary64.Negation
import Calculator.Proofs.Numeral.Canonical
import Mathlib.Computability.RegularExpressions

/-!
# The form of positional notation

The text of a decimal is a sign if the decimal is negative, a whole part without superfluous zeros
in front, and, unless it is empty, a fraction without zeros at the end.  `positionalForm` says so as
a regular expression, which the text of every decimal matches (`Decimal.toText_mem_matches`).  No
more digits stand behind the point than the grid of the decimal has places
(`Decimal.placesOf_toText_le`), and decimals of opposite signs differ in the minus sign alone
(`Decimal.toText_neg`).
-/

namespace Calculator

/-! ### A regular expression -/

/-- The digits of ASCII. -/
def asciiDigits : List Char := ['0', '1', '2', '3', '4', '5', '6', '7', '8', '9']

/-- The digits of ASCII other than zero. -/
def nonzeroDigits : List Char := ['1', '2', '3', '4', '5', '6', '7', '8', '9']

/-- Matches one of some characters. -/
def anyOf (chars : List Char) : RegularExpression Char :=
  chars.foldr (fun c r => .char c + r) 0

/-- Matches what the expression matches, and the empty text. -/
def optional (r : RegularExpression Char) : RegularExpression Char := 1 + r

/-- Matches a whole part: zero, or digits of which the first is not zero. -/
def wholeForm : RegularExpression Char :=
  .char '0' + anyOf nonzeroDigits * (anyOf asciiDigits).star

/-- Matches a fraction: digits of which the last is not zero. -/
def fractionForm : RegularExpression Char := (anyOf asciiDigits).star * anyOf nonzeroDigits

/-- Matches positional notation: `-?(0|[1-9][0-9]*)(\.[0-9]*[1-9])?`. -/
def positionalForm : RegularExpression Char :=
  optional (.char '-') * wholeForm * optional (.char '.' * fractionForm)

theorem mem_matches_anyOf {chars : List Char} {c : Char} (hc : c ∈ chars) :
    [c] ∈ (anyOf chars).matches' := by
  induction chars with
  | nil => exact absurd hc List.not_mem_nil
  | cons d chars ih =>
    rcases List.mem_cons.mp hc with rfl | hc
    · exact .inl rfl
    · exact .inr (ih hc)

theorem mem_matches_star_anyOf {chars : List Char} {s : Text} (h : ∀ c ∈ s, c ∈ chars) :
    s ∈ (anyOf chars).star.matches' := by
  rw [RegularExpression.matches'_star, Language.mem_kstar]
  have hparts : s = (s.map fun c => [c]).flatten := by
    rw [← List.flatMap_def, List.flatMap_singleton']
  refine ⟨s.map fun c => [c], hparts, fun part hpart => ?_⟩
  obtain ⟨c, hc, rfl⟩ := List.mem_map.mp hpart
  exact mem_matches_anyOf (h c hc)

/-! ### Digits in writing -/

theorem digitChar_mem_asciiDigits {d : ℕ} (hd : d < 10) : d.digitChar ∈ asciiDigits := by
  interval_cases d <;> decide

theorem digitChar_mem_nonzeroDigits {d : ℕ} (hd : d < 10) (hne : d ≠ 0) :
    d.digitChar ∈ nonzeroDigits := by
  interval_cases d
  · exact absurd rfl hne
  all_goals decide

theorem mem_nonzeroDigits {c : Char} (hc : c ∈ asciiDigits) (hne : c ≠ '0') :
    c ∈ nonzeroDigits :=
  (List.mem_cons.mp hc).resolve_left hne

theorem mem_asciiDigits_of_mem_lastDigits {n m : ℕ} : ∀ c ∈ lastDigits n m, c ∈ asciiDigits := by
  induction n generalizing m with
  | zero => simp [lastDigits]
  | succ n ih =>
    rw [lastDigits, List.forall_mem_append]
    refine ⟨ih, fun c hc => ?_⟩
    rw [List.mem_singleton.mp hc]
    exact digitChar_mem_asciiDigits (Nat.mod_lt m (by decide))

/-- A positive number is written from a digit other than zero on. -/
theorem exists_ofNat_eq_cons {n : ℕ} (hn : n ≠ 0) :
    ∃ c s, Text.ofNat n = c :: s ∧ c ∈ nonzeroDigits ∧ ∀ d ∈ s, d ∈ asciiDigits := by
  induction n using Nat.strong_induction_on with
  | _ n ih =>
  rcases Nat.lt_or_ge n 10 with hlt | hge
  · exact ⟨n.digitChar, [], Text.ofNat_of_lt hlt, digitChar_mem_nonzeroDigits hlt hn, by simp⟩
  · obtain ⟨c, s, hfront, hc, hs⟩ := ih (n / 10) (by omega) (by omega)
    refine ⟨c, s ++ [(n % 10).digitChar], ?_, hc, ?_⟩
    · rw [Text.ofNat_of_le hge, hfront]
      rfl
    · rw [List.forall_mem_append, List.forall_mem_singleton]
      exact ⟨hs, digitChar_mem_asciiDigits (Nat.mod_lt n (by decide))⟩

theorem ofNat_mem_matches (n : ℕ) : Text.ofNat n ∈ wholeForm.matches' := by
  rcases eq_or_ne n 0 with rfl | hn
  · exact .inl rfl
  · obtain ⟨c, s, hn, hc, hs⟩ := exists_ofNat_eq_cons hn
    rw [hn]
    exact .inr ⟨[c], mem_matches_anyOf hc, s, mem_matches_star_anyOf hs, rfl⟩

namespace Decimal

variable (d : Decimal)

theorem mem_asciiDigits_of_mem_shownFraction : ∀ c ∈ d.shownFraction, c ∈ asciiDigits := by
  have hfraction : ∀ c ∈ d.fraction, c ∈ asciiDigits := by
    rcases Int.eq_nat_or_neg d.exponent with ⟨n, hn | hn⟩
    · simp [fraction_of_nonneg hn]
    · rw [fraction_of_nonpos hn]
      exact mem_asciiDigits_of_mem_lastDigits
  obtain ⟨n, hn⟩ := d.exists_fraction_eq
  rw [hn, List.forall_mem_append] at hfraction
  exact hfraction.1

theorem shownFraction_mem_matches (h : d.shownFraction ≠ []) :
    d.shownFraction ∈ fractionForm.matches' := by
  have hdigits := d.mem_asciiDigits_of_mem_shownFraction
  have hsplit := List.dropLast_append_getLast h
  have hlast : ¬decide (d.shownFraction.getLast h = '0') = true :=
    List.rdropWhile_last_not (fun c => decide (c = '0')) d.fraction h
  refine ⟨d.shownFraction.dropLast, mem_matches_star_anyOf fun c hc => ?_,
    [d.shownFraction.getLast h], mem_matches_anyOf ?_, hsplit⟩
  · exact hdigits c (List.mem_of_mem_dropLast hc)
  · exact mem_nonzeroDigits (hdigits _ (List.getLast_mem h)) (by simpa using hlast)

theorem toText_mem_matches : d.toText ∈ positionalForm.matches' := by
  have hsign : (if d.negative then ['-'] else []) ∈ (optional (.char '-')).matches' := by
    cases d.negative with
    | true => exact .inr rfl
    | false => exact .inl rfl
  have hwhole := ofNat_mem_matches d.whole
  by_cases h : d.shownFraction = []
  · rw [toText_eq, run_of_eq_nil h]
    exact ⟨_, ⟨_, hsign, _, hwhole, rfl⟩, [], .inl rfl, List.append_nil _⟩
  · rw [toText_eq, run_of_ne_nil h, ← List.append_assoc]
    have hfraction : '.' :: d.shownFraction ∈ (optional (.char '.' * fractionForm)).matches' :=
      .inr ⟨['.'], rfl, _, d.shownFraction_mem_matches h, rfl⟩
    exact ⟨_, ⟨_, hsign, _, hwhole, rfl⟩, _, hfraction, rfl⟩

/-! ### Places and signs -/

theorem placesOf_toText : placesOf d.toText = d.shownFraction.length := by
  rw [← placesOf_run, toText_eq]
  cases d.negative <;> rfl

theorem placesOf_toText_le {p : ℕ} (h : -(p : ℤ) ≤ d.exponent) : placesOf d.toText ≤ p := by
  obtain ⟨i, hi⟩ := d.exists_fraction_eq
  have hlength : d.shownFraction.length ≤ d.fraction.length := by
    rw [hi, List.length_append]
    exact Nat.le_add_right _ _
  rw [placesOf_toText]
  rcases Int.eq_nat_or_neg d.exponent with ⟨n, hn | hn⟩
  · rw [fraction_of_nonneg hn, List.length_nil] at hlength
    omega
  · rw [fraction_of_nonpos hn, length_lastDigits] at hlength
    omega

theorem head?_run_ne : d.run.head? ≠ some '-' := by
  intro hhead
  have hnumber := d.isNumberChar_of_mem_run '-' (List.mem_of_mem_head? hhead)
  exact absurd hnumber (by decide)

theorem head?_toText_eq_iff : d.toText.head? = some '-' ↔ d.negative = true := by
  rw [toText_eq]
  cases d.negative with
  | true => simp
  | false => simp [d.head?_run_ne]

end Decimal

/-- The text without the minus sign in front, or with one if it had none. -/
def toggleSign : Text → Text
  | '-' :: rest => rest
  | t => '-' :: t

theorem toggleSign_of_head?_ne {t : Text} (h : t.head? ≠ some '-') : toggleSign t = '-' :: t := by
  unfold toggleSign
  split
  · exact absurd rfl h
  · rfl

theorem Decimal.toText_neg (d : Decimal) : d.neg.toText = toggleSign d.toText := by
  have hrun : d.neg.run = d.run := rfl
  rw [toText_eq, toText_eq, hrun]
  cases h : d.negative with
  | true => simp [neg, h, toggleSign]
  | false => simp [neg, h, toggleSign_of_head?_ne d.head?_run_ne]

end Calculator
