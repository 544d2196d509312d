import Calculator.Proofs.Binary64.Shortest
import Calculator.Proofs.Numeral.Positional
import Calculator.Proofs.Numeral.Significant
import Mathlib.Data.List.DropRight

/-!
# The canonical text of a literal

A run of digits and points can be written in many ways: with digits of any script, with zeros in
front of its whole part and behind its fraction, with nothing on one side of its point.
`canonicalText` is the one way without any of that.

The decimal that a run denotes (`decimalOf`) has this text (`toText_decimalOf`): the whole part is
what stands before the point, and the fraction has a digit for each one behind the point.  Its
significant digits are those that the run has between the zeros at both ends
(`significantDigits_decimalOf`).
-/

namespace Calculator

/-! ### What digits denote -/

theorem digitsValue_eq_ofDigits (digits : List ℕ) :
    digitsValue digits = Nat.ofDigits 10 digits.reverse := by
  induction digits using List.reverseRecOn with
  | nil => rfl
  | append_singleton digits d ih =>
    rw [digitsValue_concat, List.reverse_append, List.reverse_singleton, List.singleton_append,
      Nat.ofDigits_cons, ih]
    exact Nat.add_comm _ _

theorem digitsValue_append (a b : List ℕ) :
    digitsValue (a ++ b) = digitsValue a * 10 ^ b.length + digitsValue b := by
  rw [digitsValue_eq_ofDigits, List.reverse_append, Nat.ofDigits_append, List.length_reverse,
    ← digitsValue_eq_ofDigits, ← digitsValue_eq_ofDigits]
  ring

theorem digitsValue_zeros (n : ℕ) : digitsValue (List.replicate n 0) = 0 := by
  rw [digitsValue_eq_ofDigits, List.reverse_replicate]
  exact Nat.ofDigits_replicate_zero

/-- Zeros in front do not count. -/
theorem digitsValue_dropWhile (digits : List ℕ) :
    digitsValue (digits.dropWhile (· = 0)) = digitsValue digits := by
  induction digits with
  | nil => rfl
  | cons d digits ih =>
    by_cases hd : d = 0
    · rw [List.dropWhile_cons_of_pos (by simpa using hd), ih, hd]
      rfl
    · rw [List.dropWhile_cons_of_neg (by simpa using hd)]

section

variable {digits : List ℕ} (h : ∀ d ∈ digits, d < 10)

include h

theorem digitsValue_lt : digitsValue digits < 10 ^ digits.length := by
  rw [digitsValue_eq_ofDigits, ← List.length_reverse]
  exact Nat.ofDigits_lt_base_pow_length (by decide) fun d hd => h d (List.mem_reverse.mp hd)

theorem digits_digitsValue :
    Nat.digits 10 (digitsValue digits) = (digits.dropWhile (· = 0)).reverse := by
  rw [← digitsValue_dropWhile, digitsValue_eq_ofDigits]
  apply Nat.digits_ofDigits 10 (by decide)
  · intro d hd
    exact h d ((List.dropWhile_sublist _).mem (List.mem_reverse.mp hd))
  · intro hne
    rw [List.getLast_reverse]
    exact of_decide_eq_false (List.head_dropWhile_not (fun d => decide (d = 0)) _)

end

/-! ### Digits in writing -/

/-- Digits, written in ASCII. -/
def spell (digits : List ℕ) : Text := digits.map Nat.digitChar

theorem spell_append (a b : List ℕ) : spell (a ++ b) = spell a ++ spell b := List.map_append

theorem Text.ofNat_eq_spell {n : ℕ} (hn : n ≠ 0) : ofNat n = spell (Nat.digits 10 n).reverse := by
  induction n using Nat.strong_induction_on with
  | _ n ih =>
  rcases Nat.lt_or_ge n 10 with hlt | hge
  · rw [Text.ofNat_of_lt hlt, Nat.digits_of_lt 10 n hn hlt]
    rfl
  · rw [Text.ofNat_of_le hge, Nat.digits_eq_cons_digits_div (by decide) hn, List.reverse_cons,
      spell_append, ih (n / 10) (by omega) (by omega)]
    rfl

theorem digitChar_ne_zero {d : ℕ} (hd : d < 10) (hne : d ≠ 0) : d.digitChar ≠ '0' := by
  intro h
  have hread := decimalDigit?_digitChar hd
  rw [h] at hread
  exact hne (Option.some.inj hread).symm

section

variable {digits : List ℕ} (h : ∀ d ∈ digits, d < 10)

include h

/-- The whole part of a number needs a digit. -/
theorem ofNat_digitsValue :
    Text.ofNat (digitsValue digits) =
      if (digits.dropWhile (· = 0)).isEmpty then ['0'] else spell (digits.dropWhile (· = 0)) := by
  have hdigits := digits_digitsValue h
  by_cases hnil : digits.dropWhile (· = 0) = []
  · have hzero : digitsValue digits = 0 := by
      rw [← digitsValue_dropWhile, hnil]
      rfl
    rw [hzero, hnil]
    rfl
  · have hne : digitsValue digits ≠ 0 := by
      intro hzero
      rw [hzero, Nat.digits_zero, eq_comm, List.reverse_eq_nil_iff] at hdigits
      exact hnil hdigits
    rw [Text.ofNat_eq_spell hne, hdigits, List.reverse_reverse, if_neg (by simpa using hnil)]

theorem lastDigits_digitsValue (front : List ℕ) :
    lastDigits digits.length (digitsValue (front ++ digits)) = spell digits := by
  induction digits using List.reverseRecOn with
  | nil => rfl
  | append_singleton digits d ih =>
    rw [List.forall_mem_append] at h
    have hd : d < 10 := h.2 d (List.mem_singleton_self d)
    have hdiv : (10 * digitsValue (front ++ digits) + d) / 10 = digitsValue (front ++ digits) := by
      omega
    have hmod : (10 * digitsValue (front ++ digits) + d) % 10 = d := by omega
    rw [List.length_append, List.length_singleton, ← List.append_assoc, digitsValue_concat,
      lastDigits, hdiv, hmod, ih h.1, spell_append]
    rfl

/-- Zeros at the end are trimmed off the digits as they are off the text. -/
theorem trimEnd_spell :
    Text.trimEnd (· = '0') (spell digits) = spell (digits.rdropWhile (· = 0)) := by
  induction digits using List.reverseRecOn with
  | nil => rfl
  | append_singleton digits d ih =>
    rw [List.forall_mem_append] at h
    have hd : d < 10 := h.2 d (List.mem_singleton_self d)
    rw [spell_append]
    by_cases hzero : d = 0
    · rw [List.rdropWhile_concat_pos _ _ _ (by simpa using hzero), ← ih h.1, hzero]
      exact Text.trimEnd_concat rfl (spell digits)
    · have hchar := digitChar_ne_zero hd hzero
      rw [List.rdropWhile_concat_neg _ _ _ (by simpa using hzero), spell_append]
      exact List.rdropWhile_concat_neg _ _ _ (by simpa using hchar)

end

/-! ### The parts of a run -/

section

variable (run : Text)

/-- The digits before the point. -/
def wholeDigits : List ℕ := digitsOf (run.takeWhile (· ≠ '.'))

/-- The digits behind the point. -/
def fractionDigits : List ℕ := digitsOf (run.dropWhile (· ≠ '.'))

/-- The digits behind the point without the zeros at their end. -/
def shownFractionDigits : List ℕ := (fractionDigits run).rdropWhile (· = 0)

/-- The digits without the zeros at both ends, wherever the point stands. -/
def significantDigitsOf : List ℕ := ((digitsOf run).dropWhile (· = 0)).rdropWhile (· = 0)

/-- What a run denotes, in ASCII: the whole part without zeros in front, or a zero if it is empty,
and the fraction without zeros at its end, behind a point unless it is empty. -/
def canonicalText : Text :=
  let whole := (wholeDigits run).dropWhile (· = 0)
  let fraction := shownFractionDigits run
  (if whole.isEmpty then ['0'] else spell whole) ++
    (if fraction.isEmpty then [] else '.' :: spell fraction)

/-- The decimal that a run denotes. -/
def decimalOf : Decimal := ⟨false, digitsValue (digitsOf run), -(placesOf run : ℤ)⟩

theorem digitsOf_eq_append : digitsOf run = wholeDigits run ++ fractionDigits run := by
  rw [wholeDigits, fractionDigits, ← digitsOf_append, List.takeWhile_append_dropWhile]

theorem lt_of_mem_digitsOf : ∀ d ∈ digitsOf run, d < 10 := by
  intro d hd
  obtain ⟨c, -, hc⟩ := List.mem_filterMap.mp hd
  exact decimalDigit?_lt hc

theorem whole_decimalOf : (decimalOf run).whole = digitsValue (wholeDigits run) := by
  have hlt : digitsValue (fractionDigits run) < 10 ^ placesOf run :=
    digitsValue_lt (lt_of_mem_digitsOf _)
  have hdigits : (decimalOf run).digits =
      digitsValue (wholeDigits run) * 10 ^ placesOf run + digitsValue (fractionDigits run) := by
    show digitsValue (digitsOf run) = _
    rw [digitsOf_eq_append, digitsValue_append]
    rfl
  rw [Decimal.whole_of_nonpos rfl, hdigits, Nat.mul_comm,
    Nat.mul_add_div (Nat.pow_pos (by decide)), Nat.div_eq_of_lt hlt, Nat.add_zero]

theorem fraction_decimalOf : (decimalOf run).fraction = spell (fractionDigits run) := by
  rw [Decimal.fraction_of_nonpos rfl]
  show lastDigits (fractionDigits run).length (digitsValue (digitsOf run)) = _
  rw [digitsOf_eq_append]
  exact lastDigits_digitsValue (lt_of_mem_digitsOf _) _

/-- **The decimal of a run has its canonical text.** -/
theorem toText_decimalOf : (decimalOf run).toText = canonicalText run := by
  have hwhole := ofNat_digitsValue (lt_of_mem_digitsOf (run.takeWhile (· ≠ '.')))
  have hfraction := trimEnd_spell (lt_of_mem_digitsOf (run.dropWhile (· ≠ '.')))
  have hempty : (spell (shownFractionDigits run)).isEmpty = (shownFractionDigits run).isEmpty :=
    List.isEmpty_map
  unfold Decimal.toText canonicalText
  dsimp only
  rw [whole_decimalOf, fraction_decimalOf, wholeDigits, hwhole, fractionDigits, hfraction,
    ← fractionDigits, ← shownFractionDigits, hempty]
  rfl

example : canonicalText ".50".toList = "0.5".toList := by decide

theorem significantDigits_decimalOf :
    (decimalOf run).significantDigits = (significantDigitsOf run).length := by
  show ((Nat.digits 10 (digitsValue (digitsOf run))).dropWhile (· = 0)).length = _
  rw [digits_digitsValue (lt_of_mem_digitsOf run), significantDigitsOf, List.rdropWhile,
    List.length_reverse]

theorem hasPlaces_decimalOf {p : ℕ} (h : (shownFractionDigits run).length ≤ p) :
    (decimalOf run).HasPlaces p := by
  set shown := shownFractionDigits run with hshown
  -- the fraction goes on with zeros only
  obtain ⟨n, hfraction⟩ : ∃ n, fractionDigits run = shown ++ List.replicate n 0 :=
    exists_rdropWhile_append 0 (fractionDigits run)
  have hdigits : digitsValue (digitsOf run) =
      digitsValue (wholeDigits run ++ shown) * 10 ^ n := by
    rw [digitsOf_eq_append, hfraction, ← List.append_assoc, digitsValue_append, digitsValue_zeros,
      List.length_replicate, Nat.add_zero]
  have hplaces : placesOf run = shown.length + n := by
    show (fractionDigits run).length = _
    rw [hfraction, List.length_append, List.length_replicate]
  obtain ⟨i, rfl⟩ : ∃ i, p = shown.length + i := ⟨p - shown.length, by omega⟩
  refine ⟨digitsValue (wholeDigits run ++ shown) * 10 ^ i, ?_⟩
  show (digitsValue (digitsOf run) : ℚ) * 10 ^ (-(placesOf run : ℤ)) = _
  rw [hdigits, hplaces]
  push_cast
  rw [neg_add, neg_add, zpow_add₀ (by norm_num), zpow_add₀ (by norm_num), zpow_neg _ (i : ℤ),
    zpow_neg _ (n : ℤ), zpow_natCast, zpow_natCast]
  field_simp

theorem magnitude_decimalOf_lt {n : ℕ} (h : digitsValue (digitsOf run) < 10 ^ (n + placesOf run)) :
    (decimalOf run).magnitude < 10 ^ n := by
  show (digitsValue (digitsOf run) : ℚ) * 10 ^ (-(placesOf run : ℤ)) < 10 ^ n
  rw [zpow_neg, zpow_natCast, ← div_eq_mul_inv, div_lt_iff₀ (by positivity), ← pow_add]
  exact_mod_cast h

end

end Calculator
