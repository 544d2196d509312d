import Calculator.Proofs.Binary64.Shortest

/-!
# Decimals that are read apart

Decimals of few digits are too far apart to be read as one number, so a number that such a decimal
is read as stands for no other one (`magnitude_toDecimal_of_significantDigits_le`).

Two decimals of `n` significant digits differ by no less than the `10 ^ n`th part of the greater
one, whatever their powers of ten are (`Decimal.magnitude_le_mul_sub`).  Rounding is off by the
`2 ^ 53`th part at most, as long as all 53 bits are in use (`abs_reach_nearest_sub_le_div`).  With
`10 ^ n < 2 ^ 52` the decimals are further apart than both errors together
(`magnitude_eq_of_toBinary64_eq`).
-/

namespace Calculator

/-! ### How far decimals are apart -/

/-- Multiples of a step differ by a step at least. -/
theorem le_mul_sub_of_lt {a b n : ℕ} (h : a < b) (hn : a < n) : b ≤ n * (b - a) := by
  obtain ⟨c, rfl⟩ : ∃ c, b = a + (c + 1) := ⟨b - a - 1, by omega⟩
  rw [Nat.add_sub_cancel_left]
  calc a + (c + 1) ≤ (a + 1) * (c + 1) := by
        rw [Nat.add_mul, Nat.one_mul]
        exact Nat.add_le_add_right (Nat.le_mul_of_pos_right a c.succ_pos) _
    _ ≤ n * (c + 1) := Nat.mul_le_mul_right _ hn

namespace Decimal

variable {d d' : Decimal} {n : ℕ}

/-- On the finer of their two grids, the lesser of two decimals is a small multiple. -/
theorem exists_common_grid (hd : d.significantDigits ≤ n) (hd' : d'.significantDigits ≤ n)
    (hlt : d.magnitude < d'.magnitude) :
    ∃ (a b : ℕ) (e : ℤ), d.magnitude = a * 10 ^ e ∧ d'.magnitude = b * 10 ^ e ∧ a < 10 ^ n := by
  obtain ⟨k, e, hk, hmagnitude⟩ := (d.significantDigits_le_iff n).mp hd
  obtain ⟨k', e', hk', hmagnitude'⟩ := (d'.significantDigits_le_iff n).mp hd'
  have hten : (10 : ℚ) ≠ 0 := by norm_num
  rcases le_total e e' with hle | hle
  · obtain ⟨i, rfl⟩ : ∃ i : ℕ, e' = i + e := ⟨(e' - e).toNat, by omega⟩
    refine ⟨k, k' * 10 ^ i, e, hmagnitude, ?_, hk⟩
    rw [hmagnitude', zpow_add₀ hten, zpow_natCast]
    push_cast
    ring
  · obtain ⟨i, rfl⟩ : ∃ i : ℕ, e = i + e' := ⟨(e - e').toNat, by omega⟩
    have hfiner : d.magnitude = (k * 10 ^ i : ℕ) * 10 ^ e' := by
      rw [hmagnitude, zpow_add₀ hten, zpow_natCast]
      push_cast
      ring
    refine ⟨k * 10 ^ i, k', e', hfiner, hmagnitude', ?_⟩
    rw [hfiner, hmagnitude'] at hlt
    have hlt' : k * 10 ^ i < k' := by
      exact_mod_cast lt_of_mul_lt_mul_right hlt (by positivity)
    omega

theorem magnitude_le_mul_sub (hd : d.significantDigits ≤ n) (hd' : d'.significantDigits ≤ n)
    (hlt : d.magnitude < d'.magnitude) :
    d'.magnitude ≤ 10 ^ n * (d'.magnitude - d.magnitude) := by
  obtain ⟨a, b, e, ha, hb, han⟩ := exists_common_grid hd hd' hlt
  have hten : (0 : ℚ) < 10 ^ e := by positivity
  rw [ha, hb] at hlt ⊢
  have hab : a < b := by exact_mod_cast lt_of_mul_lt_mul_right hlt hten.le
  have hle : (b : ℚ) ≤ 10 ^ n * (b - a) := by
    rw [← Nat.cast_sub hab.le]
    exact_mod_cast le_mul_sub_of_lt hab han
  calc b * (10 : ℚ) ^ e ≤ 10 ^ n * (b - a) * 10 ^ e := mul_le_mul_of_nonneg_right hle hten.le
    _ = 10 ^ n * (b * 10 ^ e - a * 10 ^ e) := by ring

end Decimal

/-! ### How far rounding is off -/

namespace Binary64

/-- Where all 53 bits are in use, rounding is off by the `2 ^ 53`th part at most. -/
theorem abs_reach_nearest_sub_le_div {negative : Bool} {q : ℚ} (hq : q = 0 ∨ 2 ^ 52 ≤ q)
    (hfinite : (nearest negative q).isFinite = true) :
    |((nearest negative q).reach : ℚ) - q| ≤ q / 2 ^ 53 := by
  rcases hq with rfl | hq
  · rw [nearest_zero]
    simp [zero, reach]
  obtain ⟨m, s, -, hlower, -, -, hhalf, -, -, hreach⟩ :=
    exists_significand negative (by linarith : 0 ≤ q)
  have hle : (2 : ℚ) ^ (52 + s) ≤ q := by
    rcases hlower with rfl | hlower
    · exact hq
    · exact hlower
  have hlt := reach_lt_of_isFinite hfinite
  have hkept : m * 2 ^ s ≤ beyond := by omega
  rw [hreach, Nat.min_eq_left hkept, Nat.cast_mul, Nat.cast_pow, Nat.cast_ofNat,
    abs_mul_two_pow_sub]
  calc |(m : ℚ) - q / 2 ^ s| * 2 ^ s ≤ 1 / 2 * 2 ^ s :=
        mul_le_mul_of_nonneg_right hhalf (by positivity)
    _ = 2 ^ (52 + s) / 2 ^ 53 := by ring
    _ ≤ q / 2 ^ 53 := div_le_div_of_nonneg_right hle (by positivity)

/-- The greatest finite number with a sign. -/
def greatest (negative : Bool) : Binary64 := .finite negative (2 ^ 53 - 1) 2045 (by decide)

theorem isFinite_nearest_of_le {negative : Bool} {q : ℚ} (hq : 0 ≤ q)
    (hle : q ≤ (greatest negative).reach) : (nearest negative q).isFinite = true := by
  have hmono := reach_nearest_mono negative hq hle
  have hself : nearest negative (greatest negative).reach = greatest negative :=
    nearest_reach (x := greatest negative) (by simp [greatest])
  rw [hself] at hmono
  refine isFinite_of_reach_lt (nearest_ne_nan negative hq) (lt_of_le_of_lt hmono ?_)
  exact reach_lt_of_isFinite (x := greatest negative) rfl

theorem isFinite_toBinary64 {d : Decimal} (h : d.magnitude ≤ 10 ^ 308) :
    d.toBinary64.isFinite = true := by
  have hunit := cast_quantaPerUnit_pos
  have hpos : 0 ≤ d.magnitude * quantaPerUnit := mul_nonneg d.magnitude_nonneg hunit.le
  rw [Decimal.toBinary64_eq_nearest]
  apply isFinite_nearest_of_le hpos
  have hgreatest : 10 ^ 308 * quantaPerUnit ≤ (greatest d.negative).reach := by
    rw [quantaPerUnit_eq]
    show 10 ^ 308 * 2 ^ 1074 ≤ (2 ^ 53 - 1) * 2 ^ 2045
    decide +kernel
  calc d.magnitude * quantaPerUnit ≤ 10 ^ 308 * quantaPerUnit :=
        mul_le_mul_of_nonneg_right h hunit.le
    _ ≤ (greatest d.negative).reach := by exact_mod_cast hgreatest

/-! ### Both together -/

section

variable {d d' : Decimal} {n p k : ℕ} (hn : 10 ^ n < 2 ^ 52) (hp : 10 ^ p < 2 ^ (k + 1))
  (hk : k ≤ 52)

include hp hk in
/-- A decimal of few places is zero, or all 53 bits are in use. -/
theorem quanta_of_hasPlaces (h : d.HasPlaces p) :
    d.magnitude * quantaPerUnit = 0 ∨ 2 ^ 52 ≤ d.magnitude * quantaPerUnit := by
  obtain ⟨j, hj⟩ := h
  rw [hj, mul_assoc, ← gridStep]
  rcases Nat.eq_zero_or_pos j with rfl | hpos
  · left
    rw [Nat.cast_zero, zero_mul]
  · right
    have hone : (1 : ℚ) ≤ j := by exact_mod_cast hpos
    calc (2 : ℚ) ^ 52 ≤ 2 ^ (1073 - k) := pow_le_pow_right₀ (by norm_num) (by omega)
      _ ≤ gridStep (-p) := (lt_gridStep hp hk).le
      _ ≤ j * gridStep (-p) := le_mul_of_one_le_left (gridStep_pos _).le hone

include hp hk in
theorem abs_reach_toBinary64_sub_le (hplaces : d.HasPlaces p)
    (hfinite : d.toBinary64.isFinite = true) :
    |(d.toBinary64.reach : ℚ) - d.magnitude * quantaPerUnit| ≤
      d.magnitude * quantaPerUnit / 2 ^ 53 := by
  rw [Decimal.toBinary64_eq_nearest] at hfinite ⊢
  exact abs_reach_nearest_sub_le_div (quanta_of_hasPlaces hp hk hplaces) hfinite

include hn hp hk in
theorem not_magnitude_lt_of_toBinary64_eq (hd : d.significantDigits ≤ n)
    (hd' : d'.significantDigits ≤ n) (hplaces : d.HasPlaces p) (hplaces' : d'.HasPlaces p)
    (hfinite : d.toBinary64.isFinite = true) (h : d.toBinary64 = d'.toBinary64) :
    ¬d.magnitude < d'.magnitude := by
  intro hlt
  have hgap := Decimal.magnitude_le_mul_sub hd hd' hlt
  have hunit := cast_quantaPerUnit_pos
  have herror := abs_reach_toBinary64_sub_le hp hk hplaces hfinite
  have herror' := abs_reach_toBinary64_sub_le hp hk hplaces' (h ▸ hfinite)
  rw [← h] at herror'
  -- both are rounded to one number, so they are no further apart than the errors
  have hclose : (d'.magnitude - d.magnitude) * quantaPerUnit ≤
      d'.magnitude / 2 ^ 52 * quantaPerUnit := by
    have hle : d.magnitude * quantaPerUnit ≤ d'.magnitude * quantaPerUnit :=
      mul_le_mul_of_nonneg_right hlt.le hunit.le
    have hleft := (abs_le.mp herror).2
    have hright := (abs_le.mp herror').1
    rw [sub_mul, div_mul_eq_mul_div]
    linarith
  have hclose' : 2 ^ 52 * (d'.magnitude - d.magnitude) ≤ d'.magnitude := by
    rw [← le_div_iff₀' (by positivity)]
    exact le_of_mul_le_mul_right hclose hunit
  have hsmaller : 10 ^ n * (d'.magnitude - d.magnitude) <
      2 ^ 52 * (d'.magnitude - d.magnitude) :=
    mul_lt_mul_of_pos_right (by exact_mod_cast hn) (sub_pos.mpr hlt)
  linarith

include hn hp hk in
/-- **Decimals of few digits that are read as one number are equal**, apart from the sign of
zero. -/
theorem magnitude_eq_of_toBinary64_eq (hd : d.significantDigits ≤ n)
    (hd' : d'.significantDigits ≤ n) (hplaces : d.HasPlaces p) (hplaces' : d'.HasPlaces p)
    (hfinite : d.toBinary64.isFinite = true) (h : d.toBinary64 = d'.toBinary64) :
    d.magnitude = d'.magnitude := by
  have hfinite' : d'.toBinary64.isFinite = true := h ▸ hfinite
  have hle := not_magnitude_lt_of_toBinary64_eq hn hp hk hd hd' hplaces hplaces' hfinite h
  have hge := not_magnitude_lt_of_toBinary64_eq hn hp hk hd' hd hplaces' hplaces hfinite' h.symm
  apply le_antisymm
  · exact not_lt.mp hge
  · exact not_lt.mp hle

include hn hp hk in
/-- **A decimal of few digits is the one that stands for the number it is read as.** -/
theorem magnitude_toDecimal_of_significantDigits_le (hd : d.significantDigits ≤ n)
    (hplaces : d.HasPlaces p) (hfinite : d.toBinary64.isFinite = true) :
    (d.toBinary64.toDecimal p).magnitude = d.magnitude := by
  have hback := toBinary64_toDecimal hfinite hplaces rfl
  have hdigits := significantDigits_toDecimal_le hfinite hplaces rfl rfl
  have hplaces' := hasPlaces_toDecimal d.toBinary64 p
  exact magnitude_eq_of_toBinary64_eq hn hp hk (hdigits.trans hd) hd hplaces' hplaces
    (hback.symm ▸ hfinite) hback

end

end Binary64

end Calculator
