import Calculator.Proofs.Binary64.Separation

/-!
# Rounding as a rule

`IsRounded v x` says without any computation that `x` is what a value `v` is rounded to: the finite
number nearest to it, of two that are as near the one with the even significand, and an infinity if
the value is not below the middle between the greatest finite number and the first one beyond the
format.  The values between two subnormal numbers, and those below the least of them, need no rule
of their own.

`nearest` rounds by this rule (`isRounded_nearest`).  That it takes the even one of two numbers
comes from the rounded significand (`even_significand_nearest`).  It holds of the greatest finite
number and the one beyond as well, and as the significand of the greatest is odd their middle is
rounded to the infinity (`nearest_eq_infinity_iff`).

The rule leaves no choice either (`IsRounded.unique`): between two numbers with even significands
there is always another one.
-/

namespace Calculator

namespace Binary64

/-- The significand of a finite number in its canonical form. -/
def significand : Binary64 → ℕ
  | nan | infinity _ => 0
  | finite _ significand _ _ => significand

/-- The number `x` is what the value `v`, which is not negative, is rounded to. -/
structure IsRounded (v : ℚ) (x : Binary64) : Prop where
  /-- From half a step above the greatest finite number on there is only the infinity. -/
  overflow : 2 ^ 1024 - 2 ^ 970 ≤ v → x = infinity false
  /-- Below that there is a finite number. -/
  finite : v < 2 ^ 1024 - 2 ^ 970 → x.isFinite = true ∧ x.isNegative = false
  /-- No finite number is nearer. -/
  nearest : v < 2 ^ 1024 - 2 ^ 970 → ∀ y : Binary64, y.isFinite = true →
    |x.value - v| ≤ |y.value - v|
  /-- If another one is as near, the significand is even. -/
  even : v < 2 ^ 1024 - 2 ^ 970 → ∀ y : Binary64, y.isFinite = true → y.value ≠ x.value →
    |x.value - v| = |y.value - v| → Even x.significand

/-! ### Two numbers that are as near -/

variable {negative : Bool} {q : ℚ}

theorem ofQuanta_of_isFinite {m s : ℕ} (h : (ofQuanta negative m s).isFinite = true) :
    (ofQuanta negative m s).significand = m ∧ (ofQuanta negative m s).reach = m * 2 ^ s := by
  unfold ofQuanta at h ⊢
  split at h
  · next hcanonical =>
    rw [dif_pos hcanonical]
    exact ⟨rfl, rfl⟩
  · exact absurd h Bool.false_ne_true

/-- Of two numbers that are as near the one with the even significand is taken. -/
theorem even_significand_nearest (hq : 0 ≤ q) (hfinite : (nearest negative q).isFinite = true)
    {y : Binary64} (hne : y.reach ≠ (nearest negative q).reach)
    (htie : |((nearest negative q).reach : ℚ) - q| = |(y.reach : ℚ) - q|) :
    Even (nearest negative q).significand := by
  obtain ⟨a, b, s, hb, hratio, -, hlower, hnearest⟩ := exists_scale negative hq
  rw [hnearest] at hfinite hne htie ⊢
  split_ifs at hfinite hne htie ⊢ with hfull
  · rw [(ofQuanta_of_isFinite hfinite).1]
    exact even_two.pow_of_ne_zero (by decide)
  · obtain ⟨hsignificand, hreach⟩ := ofQuanta_of_isFinite hfinite
    rw [hsignificand]
    rw [hreach] at hne htie
    have hgrid (k : ℕ) : |(roundDiv a b : ℚ) * 2 ^ s - q| ≤ |(k : ℚ) * 2 ^ s - q| := by
      rw [abs_mul_two_pow_sub, abs_mul_two_pow_sub]
      exact mul_le_mul_of_nonneg_right (hratio ▸ abs_roundDiv_sub_le a hb k) (by positivity)
    -- the other one lies on the grid of the scale, so the rounded quotient has a tie
    have hfirst := hgrid (2 ^ 52)
    rw [Nat.cast_mul, Nat.cast_pow, Nat.cast_ofNat] at htie
    rw [htie, Nat.cast_pow, Nat.cast_ofNat, ← pow_add] at hfirst
    obtain ⟨k, hk⟩ := two_pow_dvd_reach_of_abs_sub_le hlower hfirst
    rw [Nat.mul_comm] at hk
    rw [hk, Nat.cast_mul, Nat.cast_pow, Nat.cast_ofNat, abs_mul_two_pow_sub,
      abs_mul_two_pow_sub] at htie
    have hpow : (2 : ℚ) ^ s ≠ 0 := by positivity
    refine even_roundDiv hb (k := k) ?_ (hratio ▸ mul_right_cancel₀ hpow htie)
    rintro rfl
    exact hne hk

/-! ### Overflow -/

theorem reach_greatest (negative : Bool) :
    (greatest negative).reach = (2 ^ 53 - 1) * 2 ^ 2045 := rfl

theorem reach_le_reach_greatest {x : Binary64} (hx : x.isFinite = true) (negative : Bool) :
    x.reach ≤ (greatest negative).reach := by
  cases x with
  | nan | infinity => simp [isFinite] at hx
  | finite negative' m s c =>
    have hm : m ≤ 2 ^ 53 - 1 := Nat.le_pred_of_lt c.1
    have hs : s ≤ 2045 := c.2.1
    rw [reach_greatest]
    generalize 2045 = t at hs ⊢
    exact Nat.mul_le_mul hm (Nat.pow_le_pow_right Nat.two_pos hs)

theorem isFinite_nearest (hq : 0 ≤ q) (h : nearest negative q ≠ infinity negative) :
    (nearest negative q).isFinite = true := by
  have hnan := nearest_ne_nan negative hq
  have hsign := isNegative_nearest negative hq
  cases hx : nearest negative q with
  | nan => exact absurd hx hnan
  | infinity negative' =>
    rw [hx] at h hsign
    exact absurd (congrArg infinity hsign) h
  | finite => rfl

/-- The middle between the greatest finite number and the first one beyond is rounded up, as the
significand of the greatest is odd. -/
theorem nearest_eq_infinity_iff (hq : 0 ≤ q) :
    nearest negative q = infinity negative ↔
      ((greatest negative).reach : ℚ) + beyond ≤ 2 * q := by
  have hlt : ((greatest negative).reach : ℚ) < beyond := by
    exact_mod_cast reach_lt_of_isFinite (x := greatest negative) rfl
  constructor
  · intro hx
    have hnear := abs_reach_nearest_sub_le negative hq (greatest negative)
    rw [hx] at hnear
    have hmiddle := add_le_two_mul_of_abs_sub_le hlt hnear
    linarith
  · intro hmiddle
    by_contra hx
    have hfinite := isFinite_nearest hq hx
    -- a finite number that is no further away can only be the greatest one, at the middle
    have hle : ((nearest negative q).reach : ℚ) ≤ (greatest negative).reach := by
      exact_mod_cast reach_le_reach_greatest hfinite negative
    have hmiddle' : 2 * q ≤ (beyond : ℚ) + (nearest negative q).reach :=
      two_mul_le_add_of_abs_sub_le (lt_of_le_of_lt hle hlt)
        (abs_reach_nearest_sub_le negative hq (infinity negative))
    have heq : ((nearest negative q).reach : ℚ) = (greatest negative).reach := by
      linarith
    have hgreatest : nearest negative q = greatest negative :=
      eq_of_reach_eq (nearest_ne_nan negative hq) (by simp [greatest])
        (isNegative_nearest negative hq) (by exact_mod_cast heq)
    have htie : |((nearest negative q).reach : ℚ) - q| = |((infinity negative).reach : ℚ) - q| := by
      have hbeyond : ((infinity negative).reach : ℚ) = beyond := rfl
      rw [hbeyond, abs_of_nonpos (by linarith), abs_of_nonneg (by linarith)]
      linarith
    have hne : (infinity negative).reach ≠ (nearest negative q).reach := by
      rw [hgreatest]
      exact_mod_cast hlt.ne'
    have heven := even_significand_nearest hq hfinite hne htie
    have hodd : (greatest negative).significand = 2 ^ 53 - 1 := rfl
    rw [hgreatest, hodd] at heven
    exact absurd heven (by decide)

/-! ### Values in units -/

theorem reach_eq_magnitude_mul {x : Binary64} (hx : x.isFinite = true) :
    (x.reach : ℚ) = x.magnitude * quantaPerUnit := by
  rw [reach_of_isFinite hx, magnitude, div_mul_cancel₀ _ cast_quantaPerUnit_pos.ne']

/-- Twice the value from which on there is only the infinity, in quanta. -/
theorem reach_greatest_add_beyond (negative : Bool) :
    ((greatest negative).reach : ℚ) + beyond = 2 * ((2 ^ 1024 - 2 ^ 970) * quantaPerUnit) := by
  have hfirst : (2 : ℚ) ^ 1024 * 2 ^ 1074 = 2 ^ 53 * 2 ^ 2045 := by
    rw [← pow_add, ← pow_add]
  have hstep : 2 * ((2 : ℚ) ^ 970 * 2 ^ 1074) = 2 ^ 2045 := by
    rw [← pow_add, ← pow_succ']
  have hbeyond : (beyond : ℚ) = 2 ^ 53 * 2 ^ 2045 := by
    rw [← pow_add, beyond, Nat.cast_pow, Nat.cast_ofNat]
  have hgreatest : ((greatest negative).reach : ℚ) = 2 ^ 53 * 2 ^ 2045 - 2 ^ 2045 := by
    rw [reach_greatest]
    generalize 2045 = t
    push_cast
    ring
  rw [hgreatest, hbeyond, quantaPerUnit_eq, Nat.cast_pow, Nat.cast_ofNat, sub_mul, mul_sub, hfirst,
    hstep]
  generalize (2 : ℚ) ^ 2045 = step
  ring

theorem magnitude_zero (negative : Bool) : (zero negative).magnitude = 0 := by
  have hquanta : (zero negative).quanta = 0 := rfl
  rw [magnitude, hquanta, Nat.cast_zero, zero_div]

theorem value_eq_or (x : Binary64) : x.value = x.magnitude ∨ x.value = -x.magnitude := by
  unfold value
  split_ifs
  · exact .inr rfl
  · exact .inl rfl

theorem magnitude_eq_of_reach_eq {x y : Binary64} (hx : x.isFinite = true)
    (hy : y.isFinite = true) (h : x.reach = y.reach) : x.magnitude = y.magnitude := by
  have hreach : (x.reach : ℚ) = y.reach := by rw [h]
  rw [reach_eq_magnitude_mul hx, reach_eq_magnitude_mul hy] at hreach
  exact mul_right_cancel₀ cast_quantaPerUnit_pos.ne' hreach

section

variable {v : ℚ} (hv : 0 ≤ v)
include hv

/-- To a value that is not negative the number without its sign is no further away. -/
theorem abs_magnitude_sub_le (x : Binary64) : |x.magnitude - v| ≤ |x.value - v| := by
  have hmagnitude := x.magnitude_nonneg
  rcases x.value_eq_or with h | h
  · rw [h]
  · rw [h, ← neg_add', abs_neg, abs_of_nonneg (add_nonneg hmagnitude hv), abs_le]
    constructor <;> linarith

/-- What is no further away than zero is nearer than the same number with a minus sign, unless that
is zero as well. -/
theorem value_eq_magnitude (x : Binary64) (hzero : |x.magnitude - v| ≤ v)
    (h : |x.value - v| = |x.magnitude - v|) : x.value = x.magnitude := by
  have hmagnitude := x.magnitude_nonneg
  rcases x.value_eq_or with hvalue | hvalue
  · exact hvalue
  · rw [← h, hvalue, ← neg_add', abs_neg, abs_of_nonneg (add_nonneg hmagnitude hv)] at hzero
    rw [hvalue]
    linarith

theorem nearest_units_eq_infinity_iff :
    nearest false (v * quantaPerUnit) = infinity false ↔ 2 ^ 1024 - 2 ^ 970 ≤ v := by
  have hunit := cast_quantaPerUnit_pos
  rw [nearest_eq_infinity_iff (mul_nonneg hv hunit.le), reach_greatest_add_beyond,
    mul_le_mul_iff_right₀ two_pos, mul_le_mul_iff_left₀ hunit]

/-- **Rounding follows the rule.** -/
theorem isRounded_nearest : IsRounded v (nearest false (v * quantaPerUnit)) := by
  have hunit := cast_quantaPerUnit_pos
  have hq : 0 ≤ v * quantaPerUnit := mul_nonneg hv hunit.le
  have hfinite (hlt : v < 2 ^ 1024 - 2 ^ 970) :
      (nearest false (v * quantaPerUnit)).isFinite = true := by
    refine isFinite_nearest hq fun hx => ?_
    exact absurd ((nearest_units_eq_infinity_iff hv).mp hx) (not_le.mpr hlt)
  have hsign := isNegative_nearest false hq
  set x := nearest false (v * quantaPerUnit) with hx
  have hvalue : x.value = x.magnitude := if_neg (by simp [hsign])
  -- distances in quanta are those in units on another scale
  have hscale {y : Binary64} (hy : y.isFinite = true) :
      |(y.reach : ℚ) - v * quantaPerUnit| = |y.magnitude - v| * quantaPerUnit := by
    rw [reach_eq_magnitude_mul hy, ← sub_mul, abs_mul, abs_of_pos hunit]
  have hnear (hlt : v < 2 ^ 1024 - 2 ^ 970) {y : Binary64} (hy : y.isFinite = true) :
      |x.magnitude - v| ≤ |y.magnitude - v| := by
    have h := abs_reach_nearest_sub_le false hq y
    rw [← hx, hscale (hfinite hlt), hscale hy] at h
    exact le_of_mul_le_mul_right h hunit
  refine ⟨(nearest_units_eq_infinity_iff hv).mpr, fun hlt => ⟨hfinite hlt, hsign⟩, ?_, ?_⟩
  · intro hlt y hy
    rw [hvalue]
    exact (hnear hlt hy).trans (abs_magnitude_sub_le hv y)
  · intro hlt y hy hne htie
    rw [hvalue] at hne htie
    have htie' : |x.magnitude - v| = |y.magnitude - v| :=
      le_antisymm (hnear hlt hy) (htie ▸ abs_magnitude_sub_le hv y)
    refine even_significand_nearest hq (hfinite hlt) (y := y) ?_ ?_
    · intro hreach
      have hmagnitude := magnitude_eq_of_reach_eq hy (hfinite hlt) hreach
      have hzero := hnear hlt (y := zero false) rfl
      rw [magnitude_zero, zero_sub, abs_neg, abs_of_nonneg hv, ← hmagnitude] at hzero
      rw [← hmagnitude] at hne htie
      exact hne (value_eq_magnitude hv y hzero htie.symm)
    · rw [← hx, hscale (hfinite hlt), hscale hy, htie']

end

/-! ### The rule leaves no choice -/

theorem value_lt_iff {x y : Binary64} (hx : x.isFinite = true) (hy : y.isFinite = true)
    (hxsign : x.isNegative = false) (hysign : y.isNegative = false) :
    x.value < y.value ↔ x.reach < y.reach := by
  have hxvalue : x.value = x.magnitude := if_neg (by simp [hxsign])
  have hyvalue : y.value = y.magnitude := if_neg (by simp [hysign])
  rw [hxvalue, hyvalue, ← mul_lt_mul_iff_left₀ cast_quantaPerUnit_pos, ← reach_eq_magnitude_mul hx,
    ← reach_eq_magnitude_mul hy, Nat.cast_lt]

/-- Between two numbers with even significands there is another one. -/
theorem exists_reach_between {x y : Binary64} (hx : x.isFinite = true) (hy : y.isFinite = true)
    (hxeven : Even x.significand) (hyeven : Even y.significand) (hlt : x.reach < y.reach) :
    ∃ z : Binary64, z.isFinite = true ∧ z.isNegative = y.isNegative ∧ x.reach < z.reach ∧
      z.reach < y.reach := by
  cases x with
  | nan | infinity => simp [isFinite] at hx
  | finite negative m s c =>
    have hodd : ¬Even (m + 1) := Nat.not_even_iff_odd.mpr (Even.add_one hxeven)
    have hnext : Canonical (m + 1) s := by
      obtain ⟨k, hk⟩ : ∃ k, m = k + k := hxeven
      obtain ⟨hm, hs, hleast⟩ := c
      exact ⟨by omega, hs, by omega⟩
    -- the other number lies on the grid of the first one's scale
    obtain ⟨k, hk⟩ : 2 ^ s ∣ y.reach := by
      rcases c.2.2 with hm | rfl
      · refine two_pow_dvd_reach (le_trans ?_ hlt.le)
        rw [pow_add]
        exact Nat.mul_le_mul_right _ hm
      · simp
    have hxreach : (finite negative m s c).reach = m * 2 ^ s := rfl
    have hzreach : (finite y.isNegative (m + 1) s hnext).reach = (m + 1) * 2 ^ s := rfl
    refine ⟨finite y.isNegative (m + 1) s hnext, rfl, rfl, ?_, ?_⟩
    · rw [hxreach, hzreach]
      exact Nat.mul_lt_mul_of_pos_right (Nat.lt_succ_self m) (Nat.two_pow_pos s)
    · refine lt_of_le_of_ne ?_ fun heq => ?_
      · rw [hxreach, hk, Nat.mul_comm] at hlt
        rw [hzreach, hk, Nat.mul_comm]
        exact Nat.mul_le_mul_left _ (Nat.lt_of_mul_lt_mul_left hlt)
      · have hz : finite y.isNegative (m + 1) s hnext = y :=
          eq_of_reach_eq (by simp) (ne_nan_of_isFinite hy) rfl heq
        rw [← hz] at hyeven
        exact hodd hyeven

/-- A value is rounded to one number only. -/
theorem IsRounded.unique {v : ℚ} {x y : Binary64} (hx : IsRounded v x) (hy : IsRounded v y) :
    x = y := by
  rcases le_or_gt (2 ^ 1024 - 2 ^ 970) v with hv | hv
  · rw [hx.overflow hv, hy.overflow hv]
  obtain ⟨hxfinite, hxsign⟩ := hx.finite hv
  obtain ⟨hyfinite, hysign⟩ := hy.finite hv
  refine eq_of_reach_eq (ne_nan_of_isFinite hxfinite) (ne_nan_of_isFinite hyfinite)
    (hxsign.trans hysign.symm) ?_
  by_contra hne
  wlog hlt : x.reach < y.reach generalizing x y
  · exact this hy hx hyfinite hysign hxfinite hxsign (Ne.symm hne) (by omega)
  -- two numbers that are as near both have even significands, but a third one is nearer
  have hvalue := (value_lt_iff hxfinite hyfinite hxsign hysign).mpr hlt
  have htie : |x.value - v| = |y.value - v| :=
    le_antisymm (hx.nearest hv y hyfinite) (hy.nearest hv x hxfinite)
  obtain ⟨z, hzfinite, hzsign, hxz, hzy⟩ := exists_reach_between hxfinite hyfinite
    (hx.even hv y hyfinite hvalue.ne' htie) (hy.even hv x hxfinite hvalue.ne htie.symm) hlt
  rw [hysign] at hzsign
  have hxz := (value_lt_iff hxfinite hzfinite hxsign hzsign).mpr hxz
  have hzy := (value_lt_iff hzfinite hyfinite hzsign hysign).mpr hzy
  have hmiddle : x.value - v = -(y.value - v) := by
    rcases abs_eq_abs.mp htie with h | h
    · exact absurd (sub_left_inj.mp h) hvalue.ne
    · exact h
  refine absurd (hx.nearest hv z hzfinite) (not_le.mpr ?_)
  rw [abs_of_nonpos (a := x.value - v) (by linarith), abs_lt]
  constructor <;> linarith

end Binary64

end Calculator
