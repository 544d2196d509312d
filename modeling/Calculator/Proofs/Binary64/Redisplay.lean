import Calculator.Proofs.Binary64.Grid

/-!
# Decimals that stand for the number they are read as

`x.toDecimal p` may be a decimal that does not read back as `x`, when `x` needs more than `p`
decimal places.  Even then it is the decimal of the number that it does read back as: cutting a
number to `p` places twice gives the decimal that it gives once (`magnitude_toDecimal_toBinary64`).

Let the power `10 ^ p` lie between `2 ^ k` and `2 ^ (k + 1)`.  The numbers up to `2 ^ (52 - k)`
units are less than `10 ^ (-p)` apart, so there no number stands for two multiples of `10 ^ (-p)`
(`le_of_nearest_eq`).  From there on they are further apart than that, so every number has a
multiple that reads back as it (`exists_gridHit?_of_le`), and nothing is cut at all.
-/

namespace Calculator.Binary64

/-! ### The finest grid among the powers of two -/

theorem gridStep_add (e : ℤ) (n : ℕ) : gridStep (e + n) = 10 ^ n * gridStep e := by
  unfold gridStep
  rw [zpow_add₀ (by norm_num), zpow_natCast]
  ring

theorem ofDecimal_mul_ten_pow (negative : Bool) (k n : ℕ) (e : ℤ) :
    ofDecimal negative (k * 10 ^ n) e = ofDecimal negative k (e + n) := by
  rw [ofDecimal_eq_nearest, ofDecimal_eq_nearest, gridStep_add]
  congr 1
  push_cast
  ring

theorem ten_pow_mul_gridStep (p : ℕ) : 10 ^ p * gridStep (-p) = 2 ^ 1074 := by
  rw [← gridStep_add, neg_add_cancel]
  unfold gridStep
  rw [zpow_zero, one_mul, quantaPerUnit_eq, Nat.cast_pow, Nat.cast_ofNat]

/-- Whole numbers of units lie on the grid. -/
theorem two_pow_eq_mul_gridStep (p i : ℕ) :
    (2 : ℚ) ^ (1074 + i) = (2 ^ i * 10 ^ p : ℕ) * gridStep (-p) := by
  rw [pow_add, ← ten_pow_mul_gridStep p]
  push_cast
  ring

section

variable {p k : ℕ} (hlow : 2 ^ k < 10 ^ p) (hhigh : 10 ^ p < 2 ^ (k + 1)) (hk : k ≤ 52)

include hlow hk in
theorem gridStep_lt : gridStep (-p) < 2 ^ (1074 - k) := by
  have hstep := gridStep_pos (-p)
  have hlow' : (2 : ℚ) ^ k < 10 ^ p := by exact_mod_cast hlow
  have hpow : (2 : ℚ) ^ k * gridStep (-p) < 2 ^ k * 2 ^ (1074 - k) := by
    rw [← pow_add, Nat.add_sub_cancel' (by omega), ← ten_pow_mul_gridStep p]
    exact mul_lt_mul_of_pos_right hlow' hstep
  exact lt_of_mul_lt_mul_left hpow (by positivity)

include hhigh hk in
theorem lt_gridStep : 2 ^ (1073 - k) < gridStep (-p) := by
  have hstep := gridStep_pos (-p)
  have hhigh' : (10 : ℚ) ^ p < 2 ^ (k + 1) := by exact_mod_cast hhigh
  have hpow : (2 : ℚ) ^ (k + 1) * 2 ^ (1073 - k) < 2 ^ (k + 1) * gridStep (-p) := by
    rw [← pow_add, (by omega : k + 1 + (1073 - k) = 1074), ← ten_pow_mul_gridStep p]
    exact mul_lt_mul_of_pos_right hhigh' hstep
  exact lt_of_mul_lt_mul_left hpow (by positivity)

/-! ### Where numbers are far apart -/

include hlow hk in
theorem exists_gridHit?_of_le {x : Binary64} (hx : x.isFinite = true)
    (hle : 2 ^ (1126 - k) ≤ x.quanta) : ∃ j, gridHit? x (-p) = some j := by
  have hstep := gridStep_pos (-p)
  cases x with
  | nan | infinity => simp [isFinite] at hx
  | finite negative m s c =>
    have hscale : 1074 - k ≤ s := by
      have hlt : 2 ^ (1126 - k) < 2 ^ (53 + s) := by
        calc 2 ^ (1126 - k) ≤ m * 2 ^ s := hle
          _ < 2 ^ 53 * 2 ^ s := Nat.mul_lt_mul_of_pos_right c.1 (Nat.two_pow_pos s)
          _ = 2 ^ (53 + s) := (Nat.pow_add 2 53 s).symm
      have := (Nat.pow_lt_pow_iff_right (by decide)).mp hlt
      omega
    have hm : 2 ^ 52 ≤ m := c.2.2.resolve_right (by omega)
    rcases hm.eq_or_lt with rfl | hgt
    · -- a power of two, which is a whole number of units
      refine exists_gridHit? hx (k := 2 ^ (s - 1022) * 10 ^ p) ?_
      have hself := nearest_reach (x := finite negative (2 ^ 52) s c) (by simp)
      have hreach : ((finite negative (2 ^ 52) s c).reach : ℚ) =
          (2 ^ (s - 1022) * 10 ^ p : ℕ) * gridStep (-p) := by
        rw [← two_pow_eq_mul_gridStep, (by omega : 1074 + (s - 1022) = 52 + s), pow_add]
        unfold reach
        push_cast
        rfl
      rw [ofDecimal_eq_nearest, ← hreach]
      exact hself
    · -- the nearest multiple is less than half a step of the number's own scale away
      set x := finite negative m s c
      refine exists_gridHit? hx (k := nearestMultiple x.quanta (-p)) ?_
      rw [ofDecimal_eq_nearest]
      refine nearest_eq_of_abs_sub_lt hgt ?_
      have hquanta : (x.quanta : ℚ) = m * 2 ^ s := by
        show ((m * 2 ^ s : ℕ) : ℚ) = m * 2 ^ s
        push_cast
        rfl
      have herror := abs_nearestMultiple_mul_sub_le x.quanta (-p)
      have hlt := gridStep_lt hlow hk
      have hpow : (2 : ℚ) ^ (1074 - k) ≤ 2 ^ s := pow_le_pow_right₀ (by norm_num) hscale
      rw [← hquanta, abs_sub_comm]
      linarith

/-! ### Where numbers are close together -/

include hk in
theorem abs_reach_nearest_sub_le_of_le (negative : Bool) {q : ℚ} (hq : 0 ≤ q)
    (hle : q ≤ 2 ^ (1126 - k)) :
    |((nearest negative q).reach : ℚ) - q| ≤ 2 ^ (1073 - k) / 2 := by
  rcases hle.eq_or_lt with rfl | hlt
  · rw [(by omega : 1126 - k = 52 + (1074 - k)), nearest_two_pow negative (by omega)]
    push_cast
    rw [sub_self, abs_zero]
    positivity
  · rw [(by omega : 1126 - k = 53 + (1073 - k))] at hlt
    exact abs_reach_nearest_sub_le_half negative hq (by omega) hlt

include hlow hhigh hk in
/-- Of two multiples that read back as one number, neither is below the other. -/
theorem le_of_nearest_eq {negative : Bool} {i j : ℕ} (hi : i * gridStep (-p) ≤ 2 ^ (1126 - k))
    (heq : nearest negative (i * gridStep (-p)) = nearest negative (j * gridStep (-p))) :
    j ≤ i := by
  have hstep := gridStep_pos (-p)
  have hgt := lt_gridStep hhigh hk
  have hle := gridStep_lt hlow hk
  by_contra hlt
  by_cases hj : j * gridStep (-p) ≤ 2 ^ (1126 - k)
  · -- both are off by half a step at most, and so less than a multiple apart
    have hleft := abs_le.mp (abs_reach_nearest_sub_le_of_le hk negative (by positivity) hi)
    have hright := abs_le.mp (abs_reach_nearest_sub_le_of_le hk negative (by positivity) hj)
    rw [heq] at hleft
    have hone : (i + 1 : ℚ) * gridStep (-p) ≤ j * gridStep (-p) :=
      mul_le_mul_of_nonneg_right (by exact_mod_cast Nat.lt_of_not_le hlt) hstep.le
    linarith
  · -- the bound is a multiple itself, so it and the next multiple read back as this number too
    set b := 2 ^ (52 - k) * 10 ^ p
    have hb : (2 : ℚ) ^ (1126 - k) = b * gridStep (-p) := by
      rw [← two_pow_eq_mul_gridStep, (by omega : 1074 + (52 - k) = 1126 - k)]
    rw [hb] at hi hj
    have hbj : b < j := by
      have := lt_of_mul_lt_mul_right (lt_of_not_ge hj) hstep.le
      exact_mod_cast this
    have hnext : (b : ℚ) * gridStep (-p) + gridStep (-p) ≤ j * gridStep (-p) := by
      calc (b : ℚ) * gridStep (-p) + gridStep (-p) = (b + 1) * gridStep (-p) := by ring
        _ ≤ j * gridStep (-p) := mul_le_mul_of_nonneg_right (by exact_mod_cast hbj) hstep.le
    have hbound := nearest_eq_of_le_of_le negative (by positivity) hi (by linarith) heq
    have hbound' := nearest_eq_of_le_of_le negative (r := b * gridStep (-p) + gridStep (-p))
      (by positivity) (by linarith) hnext heq
    -- but the next multiple is rounded by less than the step that it is further
    have hsame := congrArg reach (hbound'.trans hbound.symm)
    rw [← hb, (by omega : 1126 - k = 52 + (1074 - k)), nearest_two_pow negative (by omega)] at hsame
    have hpow : (2 : ℚ) ^ (52 + (1074 - k)) + gridStep (-p) < 2 ^ (53 + (1074 - k)) := by
      have hlt' : (2 : ℚ) ^ (1074 - k) < 2 ^ (52 + (1074 - k)) :=
        pow_lt_pow_right₀ (by norm_num) (by omega)
      calc (2 : ℚ) ^ (52 + (1074 - k)) + gridStep (-p)
          < 2 ^ (52 + (1074 - k)) + 2 ^ (52 + (1074 - k)) := by linarith
        _ = 2 ^ (53 + (1074 - k)) := by ring
    have herror := abs_le.mp (abs_reach_nearest_sub_le_half negative (by positivity)
      (by omega : 1074 - k ≤ 2045) hpow)
    rw [hsame, (by omega : 1074 - k = 1073 - k + 1), pow_succ (2 : ℚ) (1073 - k)] at herror
    push_cast at herror
    linarith

/-! ### Both together -/

include hlow hk in
/-- The nearest multiple of a number that no multiple reads back as is one of the close ones. -/
theorem nearestMultiple_mul_gridStep_le {x : Binary64} (hx : x.isFinite = true)
    (hnone : gridHit? x (-p) = none) :
    nearestMultiple x.quanta (-p) * gridStep (-p) ≤ 2 ^ (1126 - k) := by
  have hstep := gridStep_pos (-p)
  have hquanta : (x.quanta : ℚ) ≤ 2 ^ (1126 - k) := by
    have hlt : x.quanta < 2 ^ (1126 - k) := by
      by_contra hge
      obtain ⟨j, hj⟩ := exists_gridHit?_of_le hlow hk hx (Nat.le_of_not_lt hge)
      rw [hnone] at hj
      exact absurd hj (by simp)
    exact_mod_cast hlt.le
  have hbound : (2 : ℚ) ^ (1126 - k) = (2 ^ (52 - k) * 10 ^ p : ℕ) * gridStep (-p) := by
    rw [← two_pow_eq_mul_gridStep, (by omega : 1074 + (52 - k) = 1126 - k)]
  rw [hbound] at hquanta ⊢
  exact mul_le_mul_of_nonneg_right (by exact_mod_cast nearestMultiple_le hquanta) hstep.le

/-- A decimal of at most `p` places is a multiple of the finest grid. -/
theorem exists_mul_gridStep {d : Decimal} (h : -(p : ℤ) ≤ d.exponent) :
    ∃ j : ℕ, d.toBinary64 = nearest d.negative (j * gridStep (-p)) ∧
      d.magnitude = j * 10 ^ (-p : ℤ) := by
  obtain ⟨i, hi⟩ : ∃ i : ℕ, d.exponent = -p + i := ⟨(d.exponent + p).toNat, by omega⟩
  refine ⟨d.digits * 10 ^ i, ?_, ?_⟩
  · rw [Decimal.toBinary64, hi, ← ofDecimal_mul_ten_pow, ofDecimal_eq_nearest]
  · unfold Decimal.magnitude
    rw [hi, zpow_add₀ (by norm_num), zpow_natCast]
    push_cast
    ring

include hlow hhigh hk in
/-- **Cutting twice is cutting once**: the decimal of a number reads back as a number with the same
sign and the same decimal. -/
theorem magnitude_toDecimal_toBinary64 {x : Binary64} (hx : x.isFinite = true) :
    (x.toDecimal p).toBinary64.isFinite = true ∧
      (x.toDecimal p).toBinary64.isNegative = x.isNegative ∧
      ((x.toDecimal p).toBinary64.toDecimal p).magnitude = (x.toDecimal p).magnitude := by
  have hstep := gridStep_pos (-p)
  rcases toDecimal_spec x p with hsame | ⟨hnone, hexponent, hdigits⟩
  · rw [hsame]
    exact ⟨hx, rfl, rfl⟩
  have hi := nearestMultiple_mul_gridStep_le hlow hk hx hnone
  rw [← hdigits] at hi
  set d := x.toDecimal p with hd
  have hread : d.toBinary64 = nearest x.isNegative (d.digits * gridStep (-p)) := by
    unfold Decimal.toBinary64
    rw [ofDecimal_eq_nearest, hexponent, hd, negative_toDecimal]
  set y := d.toBinary64
  have hsign : y.isNegative = x.isNegative := by
    rw [hread]
    exact isNegative_nearest _ (by positivity)
  have hfinite : y.isFinite = true := by
    have hmono := reach_nearest_mono x.isNegative (by positivity) hi
    rw [← hread, (by omega : 1126 - k = 52 + (1074 - k)), nearest_two_pow _ (by omega)] at hmono
    refine isFinite_of_reach_lt (hread ▸ nearest_ne_nan _ (by positivity)) ?_
    refine lt_of_le_of_lt hmono ?_
    rw [← Nat.not_le, beyond_le_two_pow_iff]
    omega
  refine ⟨hfinite, hsign, ?_⟩
  -- `d` itself reads back as `y`, so whatever decimal `y` gets reads back as well
  have hback : (y.toDecimal p).toBinary64 = y := by
    refine (toDecimal_spec y p).resolve_right ?_
    rintro ⟨hnone', -, -⟩
    obtain ⟨j, hj⟩ := exists_gridHit? hfinite (k := d.digits) (e := -p)
      (by rw [ofDecimal_eq_nearest, hsign, ← hread])
    rw [hnone'] at hj
    exact absurd hj (by simp)
  obtain ⟨j, hj, hmagnitude⟩ := exists_mul_gridStep (neg_le_exponent_toDecimal y p)
  rw [hback, negative_toDecimal, hsign, hread] at hj
  have hle := le_of_nearest_eq hlow hhigh hk hi hj
  have hle' := le_of_nearest_eq hlow hhigh hk
    ((mul_le_mul_of_nonneg_right (by exact_mod_cast hle) hstep.le).trans hi) hj.symm
  rw [hmagnitude, Nat.le_antisymm hle hle']
  unfold Decimal.magnitude
  rw [hexponent]

end

end Calculator.Binary64
