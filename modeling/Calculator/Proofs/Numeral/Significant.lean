import Calculator.Proofs.Binary64.Grid
import Mathlib.Data.Nat.Digits.Lemmas

/-!
# Significant digits

The significant digits of a decimal are those from the first to the last that is not zero, wherever
the point stands.  A decimal has at most `n` of them iff it is a multiple, less than `10 ^ n`, of a
power of ten (`significantDigits_le_iff`), and so their number depends on nothing but the absolute
value of the decimal.
-/

namespace Calculator.Decimal

/-- The digits of a natural number, the last first, without the zeros at its end. -/
def significantPart (m : ℕ) : List ℕ := (Nat.digits 10 m).dropWhile (· = 0)

/-- The number of significant digits of a decimal. -/
def significantDigits (d : Decimal) : ℕ := (significantPart d.digits).length

/-- A natural number without the zeros at its end. -/
def significand (m : ℕ) : ℕ := Nat.ofDigits 10 (significantPart m)

theorem exists_ofDigits_dropWhile (L : List ℕ) :
    ∃ t, Nat.ofDigits 10 L = Nat.ofDigits 10 (L.dropWhile (· = 0)) * 10 ^ t := by
  induction L with
  | nil => exact ⟨0, rfl⟩
  | cons c L ih =>
    by_cases hc : c = 0
    · obtain ⟨t, ht⟩ := ih
      refine ⟨t + 1, ?_⟩
      rw [List.dropWhile_cons_of_pos (by simpa using hc), Nat.ofDigits_cons, hc, ht, pow_succ]
      ring
    · refine ⟨0, ?_⟩
      rw [List.dropWhile_cons_of_neg (by simpa using hc), pow_zero, mul_one]

theorem exists_eq_significand_mul (m : ℕ) : ∃ t, m = significand m * 10 ^ t := by
  obtain ⟨t, ht⟩ := exists_ofDigits_dropWhile (Nat.digits 10 m)
  rw [Nat.ofDigits_digits] at ht
  exact ⟨t, ht⟩

theorem significand_lt (m : ℕ) : significand m < 10 ^ (significantPart m).length := by
  apply Nat.ofDigits_lt_base_pow_length (by decide)
  intro c hc
  exact Nat.digits_lt_base (by decide) ((List.dropWhile_sublist _).mem hc)

section

variable {m : ℕ} (hm : significantPart m ≠ [])

include hm

theorem not_ten_dvd_significand : ¬10 ∣ significand m := by
  have hfirst : (significantPart m).head hm ≠ 0 :=
    of_decide_eq_false (List.head_dropWhile_not (fun c => decide (c = 0)) hm)
  have hlt : (significantPart m).head hm < 10 := by
    apply Nat.digits_lt_base (b := 10) (m := m) (by decide)
    exact (List.dropWhile_sublist _).mem (List.head_mem hm)
  have hcons : significand m =
      (significantPart m).head hm + 10 * Nat.ofDigits 10 (significantPart m).tail := by
    unfold significand
    conv_lhs => rw [← List.cons_head_tail hm]
    exact Nat.ofDigits_cons
  rw [hcons]
  omega

theorem ten_pow_length_le : 10 ^ (significantPart m).length ≤ 10 * significand m := by
  have hzero : m ≠ 0 := by
    rintro rfl
    exact hm rfl
  apply Nat.pow_length_le_mul_ofDigits hm
  have hlast := (List.dropWhile_suffix (fun c => decide (c = 0))).getLast hm
  intro h
  exact Nat.getLast_digit_ne_zero 10 hzero (hlast.symm.trans h)

end

theorem significantDigits_le_iff (d : Decimal) (n : ℕ) :
    d.significantDigits ≤ n ↔ ∃ (k : ℕ) (e : ℤ), k < 10 ^ n ∧ d.magnitude = k * 10 ^ e := by
  obtain ⟨t, ht⟩ := exists_eq_significand_mul d.digits
  have hmagnitude : d.magnitude = significand d.digits * 10 ^ (t + d.exponent) := by
    unfold magnitude
    rw [zpow_add₀ (by norm_num), zpow_natCast, ← mul_assoc]
    congr 1
    exact_mod_cast ht
  unfold significantDigits
  constructor
  · intro hle
    have hpow : 10 ^ (significantPart d.digits).length ≤ 10 ^ n :=
      Nat.pow_le_pow_right (by decide) hle
    exact ⟨_, _, lt_of_lt_of_le (significand_lt d.digits) hpow, hmagnitude⟩
  · rintro ⟨k, e, hk, hke⟩
    by_contra hlong
    have hne : significantPart d.digits ≠ [] := by
      intro hnil
      rw [hnil] at hlong
      exact hlong (Nat.zero_le n)
    have hdvd := not_ten_dvd_significand hne
    have hlength := ten_pow_length_le hne
    have hpow : 10 ^ (n + 1) ≤ 10 ^ (significantPart d.digits).length :=
      Nat.pow_le_pow_right (by decide) (by omega)
    have heq := hmagnitude.symm.trans hke
    generalize significand d.digits = m at hdvd hlength heq
    have hkm : k < m := by
      rw [pow_succ] at hpow
      omega
    -- as `k` is less, its power of ten is greater, but `m` has no more zeros to give
    rcases Int.lt_or_le (t + d.exponent) e with hlt | hle
    · obtain ⟨i, rfl⟩ : ∃ i : ℕ, e = (i + 1 : ℕ) + (t + d.exponent) :=
        ⟨(e - (t + d.exponent) - 1).toNat, by omega⟩
      rw [zpow_add₀ (by norm_num : (10 : ℚ) ≠ 0) (i + 1 : ℕ), zpow_natCast, ← mul_assoc] at heq
      have hmk : (m : ℚ) = k * 10 ^ (i + 1) := mul_right_cancel₀ (by positivity) heq
      have hmk' : m = k * 10 ^ (i + 1) := by exact_mod_cast hmk
      apply hdvd
      rw [hmk']
      exact Dvd.dvd.mul_left (dvd_pow_self 10 (by omega)) k
    · have hpow' : (10 : ℚ) ^ e ≤ 10 ^ (t + d.exponent) := zpow_le_zpow_right₀ (by norm_num) hle
      have hlt : (k : ℚ) * 10 ^ e < m * 10 ^ (t + d.exponent) := by
        calc (k : ℚ) * 10 ^ e < m * 10 ^ e :=
              mul_lt_mul_of_pos_right (by exact_mod_cast hkm) (by positivity)
          _ ≤ m * 10 ^ (t + d.exponent) := mul_le_mul_of_nonneg_left hpow' (Nat.cast_nonneg m)
      exact absurd heq hlt.ne'

theorem significantDigits_congr {d d' : Decimal} (h : d.magnitude = d'.magnitude) :
    d.significantDigits = d'.significantDigits := by
  apply Nat.le_antisymm
  · rw [significantDigits_le_iff, h, ← significantDigits_le_iff]
  · rw [significantDigits_le_iff, ← h, ← significantDigits_le_iff]

end Calculator.Decimal
