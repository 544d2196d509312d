import Calculator.Proofs.Binary64.Redisplay
import Calculator.Proofs.Numeral.Significant

/-!
# The shortest decimal and the nearest one

The decimal of a number is the shortest that reads back as it, if any of the allowed places does
(`significantDigits_toDecimal_le`), and else the nearest one of these places
(`isNearestMultiple_toDecimal`).

Grids are nested, so the coarsest one with a decimal that reads back is the one that the walk stops
at.  A decimal on a finer grid is no shorter: if it had fewer digits it would be less than a power
of ten that the found decimal reaches, that power would read back too, and lies on a coarser grid.

Both kinds of decimals are multiples of the last place.  A greater number never gets a lesser one
(`value_toDecimal_mono`), as a multiple that reads back lies on the same side of the other number as
the number itself does, and closer to it than a multiple beyond.
-/

namespace Calculator

/-! ### Values -/

/-- A decimal as a number of units, with its sign. -/
def Decimal.value (d : Decimal) : ℚ := if d.negative then -d.magnitude else d.magnitude

theorem Decimal.magnitude_nonneg (d : Decimal) : 0 ≤ d.magnitude := by
  unfold magnitude
  positivity

/-- The decimal has at most `p` digits behind the point. -/
def Decimal.HasPlaces (d : Decimal) (p : ℕ) : Prop := ∃ k : ℕ, d.magnitude = k * 10 ^ (-(p : ℤ))

/-- The value `q` is the multiple of a step that is nearest to `r`, an even one if two are. -/
def IsNearestMultiple (step r q : ℚ) : Prop :=
  ∃ k : ℤ, q = k * step ∧ (∀ j : ℤ, |q - r| ≤ |j * step - r|) ∧
    ∀ j : ℤ, j ≠ k → |q - r| = |j * step - r| → Even k

theorem IsNearestMultiple.neg {step r q : ℚ} (h : IsNearestMultiple step r q) :
    IsNearestMultiple step (-r) (-q) := by
  obtain ⟨k, hk, hnear, htie⟩ := h
  have hflip (j : ℤ) : |(j : ℚ) * step - -r| = |((-j : ℤ) : ℚ) * step - r| := by
    rw [← abs_neg]
    push_cast
    ring_nf
  have hq : |(-q) - -r| = |q - r| := by
    rw [← abs_neg]
    ring_nf
  refine ⟨-k, by rw [hk]; push_cast; ring, ?_, ?_⟩
  · intro j
    rw [hq, hflip]
    exact hnear (-j)
  · intro j hj heq
    rw [hq, hflip] at heq
    exact (htie (-j) (by omega) heq).neg

namespace Binary64

/-- A finite number as a number of units, without its sign. -/
def magnitude (x : Binary64) : ℚ := x.quanta / quantaPerUnit

/-- A finite number as a number of units, with its sign. -/
def value (x : Binary64) : ℚ := if x.isNegative then -x.magnitude else x.magnitude

theorem cast_quantaPerUnit_pos : (0 : ℚ) < quantaPerUnit := by
  exact_mod_cast quantaPerUnit_pos

theorem magnitude_nonneg (x : Binary64) : 0 ≤ x.magnitude :=
  div_nonneg (Nat.cast_nonneg _) cast_quantaPerUnit_pos.le

theorem magnitude_le_iff {x y : Binary64} : x.magnitude ≤ y.magnitude ↔ x.quanta ≤ y.quanta := by
  unfold magnitude
  rw [div_le_div_iff_of_pos_right cast_quantaPerUnit_pos, Nat.cast_le]

end Binary64

/-- How a decimal is read depends on nothing but its sign and its absolute value. -/
theorem Decimal.toBinary64_eq_nearest (d : Decimal) :
    d.toBinary64 = .nearest d.negative (d.magnitude * Binary64.quantaPerUnit) := by
  unfold toBinary64 magnitude
  rw [Binary64.ofDecimal_eq_nearest, Binary64.gridStep, mul_assoc]

namespace Binary64

variable {x y : Binary64} {p : ℕ}

/-! ### The nearest multiple -/

theorem nearestMultiple_spec (x : Binary64) (e : ℤ) (k : ℕ) :
    |nearestMultiple x.quanta e * 10 ^ e - x.magnitude| ≤ |(k : ℚ) * 10 ^ e - x.magnitude| ∧
      (k ≠ nearestMultiple x.quanta e →
        |nearestMultiple x.quanta e * 10 ^ e - x.magnitude| = |(k : ℚ) * 10 ^ e - x.magnitude| →
        Even (nearestMultiple x.quanta e)) := by
  obtain ⟨hpos, hratio⟩ := stepsRatio_spec x.quanta e
  have hten : (0 : ℚ) < 10 ^ e := by positivity
  -- distances in steps of the grid
  have hscale (j : ℚ) : |j * 10 ^ e - x.magnitude| =
      |j - (stepsRatio x.quanta e).1 / (stepsRatio x.quanta e).2| * 10 ^ e := by
    have hunit := cast_quantaPerUnit_pos
    rw [hratio]
    calc |j * 10 ^ e - x.magnitude| = |(j - x.quanta / gridStep e) * 10 ^ e| := by
          unfold magnitude gridStep
          generalize (quantaPerUnit : ℚ) = unit at hunit ⊢
          congr 1
          field_simp
      _ = |j - x.quanta / gridStep e| * 10 ^ e := by rw [abs_mul, abs_of_pos hten]
  rw [hscale, hscale]
  constructor
  · exact mul_le_mul_of_nonneg_right (abs_roundDiv_sub_le _ hpos k) hten.le
  · intro hne heq
    exact even_roundDiv hpos hne (mul_right_cancel₀ hten.ne' heq)

theorem isNearestMultiple_nearestMultiple (x : Binary64) (e : ℤ) :
    IsNearestMultiple (10 ^ e) x.magnitude (nearestMultiple x.quanta e * 10 ^ e) := by
  -- a negative multiple is further away than zero is
  have hfar (i : ℕ) : |nearestMultiple x.quanta e * 10 ^ e - x.magnitude| <
      |((Int.negSucc i : ℤ) : ℚ) * 10 ^ e - x.magnitude| := by
    have hten : (0 : ℚ) < (i + 1) * 10 ^ e := by positivity
    have hzero := (nearestMultiple_spec x e 0).1
    have hx := x.magnitude_nonneg
    rw [Nat.cast_zero, zero_mul, zero_sub, abs_neg, abs_of_nonneg hx] at hzero
    have hneg : ((Int.negSucc i : ℤ) : ℚ) * 10 ^ e - x.magnitude =
        -((i + 1) * 10 ^ e + x.magnitude) := by
      rw [Int.cast_negSucc]
      push_cast
      ring
    have habs : |((Int.negSucc i : ℤ) : ℚ) * 10 ^ e - x.magnitude| =
        (i + 1) * 10 ^ e + x.magnitude := by
      rw [hneg, abs_neg, abs_of_pos (by linarith)]
    rw [habs]
    linarith
  refine ⟨nearestMultiple x.quanta e, by rw [Int.cast_natCast], ?_, ?_⟩
  · intro j
    cases j with
    | ofNat k => exact (nearestMultiple_spec x e k).1
    | negSucc i => exact (hfar i).le
  · intro j hj heq
    cases j with
    | ofNat k =>
      have heven := (nearestMultiple_spec x e k).2 (by rintro rfl; exact hj rfl) heq
      exact_mod_cast heven
    | negSucc i => exact absurd heq (hfar i).ne

/-- **The nearest decimal**, if none of as many places reads back as the number. -/
theorem isNearestMultiple_toDecimal (hnone : (x.toDecimal p).toBinary64 ≠ x) :
    IsNearestMultiple (10 ^ (-(p : ℤ))) x.value (x.toDecimal p).value := by
  obtain ⟨-, hexponent, hdigits⟩ := (toDecimal_spec x p).resolve_left hnone
  have hnear := isNearestMultiple_nearestMultiple x (-p)
  rw [← hdigits, ← hexponent, ← Decimal.magnitude] at hnear
  unfold value Decimal.value
  rw [negative_toDecimal, ← hexponent]
  cases x.isNegative with
  | false => exact hnear
  | true => exact hnear.neg

/-! ### The coarsest grid -/

theorem gridStep_le {e e' : ℤ} (h : e ≤ e') : gridStep e ≤ gridStep e' :=
  mul_le_mul_of_nonneg_right (zpow_le_zpow_right₀ (by norm_num) h) cast_quantaPerUnit_pos.le

/-- Between two decimals that read back as a number, those on the coarser grid do as well. -/
theorem ofDecimal_eq_of_le_of_le {i j k : ℕ} {e e' : ℤ} (he : e ≤ e') (hij : i ≤ j) (hjk : j ≤ k)
    (h : ofDecimal x.isNegative i e = x) (h' : ofDecimal x.isNegative k e' = x) :
    ofDecimal x.isNegative j e' = x := by
  have hpos := gridStep_pos e
  have hpos' := gridStep_pos e'
  have hlower : i * gridStep e ≤ j * gridStep e' :=
    mul_le_mul (by exact_mod_cast hij) (gridStep_le he) hpos.le (Nat.cast_nonneg j)
  have hupper : j * gridStep e' ≤ k * gridStep e' :=
    mul_le_mul_of_nonneg_right (by exact_mod_cast hjk) hpos'.le
  rw [ofDecimal_eq_nearest] at h h' ⊢
  rw [nearest_eq_of_le_of_le _ (by positivity) hlower hupper (h.trans h'.symm), h]

/-- A grid holds the decimals of every coarser one. -/
theorem exists_gridHit?_finer (hx : x.isFinite = true) {k : ℕ} {e e' : ℤ} (hle : e ≤ e')
    (h : ofDecimal x.isNegative k e' = x) : ∃ k', gridHit? x e = some k' := by
  obtain ⟨n, rfl⟩ : ∃ n : ℕ, e' = e + n := ⟨(e' - e).toNat, by omega⟩
  rw [← ofDecimal_mul_ten_pow] at h
  exact exists_gridHit? hx h

theorem gridHit?_le {e : ℤ} {k : ℕ} (h : gridHit? x e = some k) :
    k ≤ (stepsRatio x.quanta e).1 / (stepsRatio x.quanta e).2 + 1 := by
  unfold gridHit? at h
  dsimp only at h
  have hround := roundDiv_eq_or (stepsRatio x.quanta e).1 (stepsRatio x.quanta e).2
  split at h
  · rw [Option.some.injEq] at h
    omega
  · rw [Option.some.injEq] at h
    omega
  · rw [Option.some.injEq] at h
    omega
  · exact absurd h (by simp)

/-- On the first grid of the walk the number lies between zero and one step. -/
theorem gridHit?_topExponent_le {k : ℕ} (h : gridHit? x x.topExponent = some k) : k ≤ 1 := by
  have hle := gridHit?_le h
  have hlt : x.quanta / quantaPerUnit < 10 ^ x.topExponent :=
    (Nat.length_toDigits_le_iff (by decide) Nat.length_toDigits_pos).mp (le_refl _)
  have hbelow :
      (stepsRatio x.quanta x.topExponent).1 / (stepsRatio x.quanta x.topExponent).2 = 0 := by
    unfold stepsRatio
    rw [if_pos (Int.natCast_nonneg _), Int.toNat_natCast, Nat.pow_eq]
    exact Nat.div_eq_of_lt ((Nat.div_lt_iff_lt_mul quantaPerUnit_pos).mp hlt)
  omega

/-- No coarser grid holds a decimal of the number, unless the found one is a power of ten itself. -/
theorem digits_le_one {grids : ℕ} {d : Decimal} (hx : x.isFinite = true)
    (hwalk : shortest? x grids x.topExponent = some d) {k : ℕ} {e : ℤ} (he : d.exponent < e)
    (h : ofDecimal x.isNegative k e = x) : d.digits ≤ 1 := by
  obtain ⟨-, hhit, -, hle, hcoarser⟩ := shortest?_spec hwalk
  rcases eq_or_lt_of_le hle with heq | hlt
  · rw [heq] at hhit
    exact gridHit?_topExponent_le hhit
  · obtain ⟨k', hk'⟩ := exists_gridHit?_finer hx (Int.add_one_le_of_lt he) h
    rw [hcoarser (d.exponent + 1) (by omega) (by omega)] at hk'
    exact absurd hk' (by simp)

theorem digits_toDecimal_zero (negative : Bool) (p : ℕ) :
    ((zero negative).toDecimal p).digits = 0 := by
  have hhit : gridHit? (zero negative) (zero negative).topExponent = some 0 := by
    cases negative <;> decide +kernel
  unfold toDecimal
  rw [Nat.add_right_comm, shortest?, hhit]

theorem nearest_zero (negative : Bool) : nearest negative 0 = zero negative := by
  have hself := nearest_reach (x := zero negative) (by simp [zero])
  have hreach : ((zero negative).reach : ℚ) = 0 := by simp [zero, reach]
  rw [hreach] at hself
  exact hself

theorem magnitude_toDecimal_eq_zero (hx : x.isFinite = true) (h : x.magnitude = 0) (p : ℕ) :
    (x.toDecimal p).magnitude = 0 := by
  have hquanta : (x.quanta : ℚ) = 0 :=
    (div_eq_zero_iff.mp h).resolve_right cast_quantaPerUnit_pos.ne'
  rw [← nearest_quanta hx, hquanta, nearest_zero, Decimal.magnitude, digits_toDecimal_zero,
    Nat.cast_zero, zero_mul]

/-! ### The shortest decimal -/

/-- A decimal that reads back has the sign of the number, so its absolute value tells the rest. -/
theorem ofDecimal_of_magnitude_eq {d : Decimal} {k : ℕ} {e : ℤ} (hback : d.toBinary64 = x)
    (h : d.magnitude = k * 10 ^ e) : ofDecimal x.isNegative k e = x := by
  have hq : 0 ≤ k * gridStep e := mul_nonneg (Nat.cast_nonneg k) (gridStep_pos e).le
  rw [Decimal.toBinary64_eq_nearest, h, mul_assoc, ← gridStep] at hback
  rw [ofDecimal_eq_nearest, ← hback, isNegative_nearest _ hq]

/-- The walk finds a decimal if there is one of as many places. -/
theorem shortest?_toDecimal (hx : x.isFinite = true) {d : Decimal} (hplaces : d.HasPlaces p)
    (hback : d.toBinary64 = x) :
    shortest? x (x.topExponent + 1 + p) x.topExponent = some (x.toDecimal p) := by
  obtain ⟨k, hk⟩ := hplaces
  obtain ⟨k', hk'⟩ := exists_gridHit? hx (ofDecimal_of_magnitude_eq hback hk)
  cases hwalk : shortest? x (x.topExponent + 1 + p) x.topExponent with
  | some found => rw [toDecimal, hwalk]
  | none =>
    have hlast := gridHit?_of_shortest?_eq_none hwalk (i := x.topExponent + p) (by omega)
    rw [Nat.cast_add, sub_add_cancel_left, hk'] at hlast
    exact absurd hlast (by simp)

theorem toBinary64_toDecimal (hx : x.isFinite = true) {d : Decimal} (hplaces : d.HasPlaces p)
    (hback : d.toBinary64 = x) : (x.toDecimal p).toBinary64 = x :=
  toBinary64_of_shortest? (shortest?_toDecimal hx hplaces hback)

/-- **The shortest decimal**, if one of as many places reads back as the number: no decimal of any
number of places has fewer significant digits and reads back. -/
theorem significantDigits_toDecimal_le (hx : x.isFinite = true) {d d' : Decimal}
    (hplaces : d.HasPlaces p) (hback : d.toBinary64 = x) (hback' : d'.toBinary64 = x) :
    (x.toDecimal p).significantDigits ≤ d'.significantDigits := by
  have hwalk := shortest?_toDecimal hx hplaces hback
  have hfound := toBinary64_toDecimal hx hplaces hback
  generalize hn : d'.significantDigits = n
  obtain ⟨k, e, hk, hmagnitude⟩ := (d'.significantDigits_le_iff n).mp hn.le
  have hread := ofDecimal_of_magnitude_eq hback' hmagnitude
  rw [Decimal.significantDigits_le_iff]
  refine ⟨_, _, ?_, rfl⟩
  rcases Nat.eq_zero_or_pos k with rfl | hpos
  · -- only a zero is read from no digits
    rw [ofDecimal_eq_nearest, Nat.cast_zero, zero_mul, nearest_zero] at hread
    rw [← hread, digits_toDecimal_zero]
    exact hk
  · by_contra hge
    rw [not_lt] at hge
    -- a decimal on a coarser grid would leave the found one but a single digit
    have hcoarser {k : ℕ} {e : ℤ} (h : ofDecimal x.isNegative k e = x) :
        e ≤ (x.toDecimal p).exponent := by
      by_contra hlt
      have := digits_le_one hx hwalk (lt_of_not_ge hlt) h
      omega
    -- but between the two decimals lies a power of ten
    have hpower : ofDecimal x.isNegative (1 * 10 ^ n) (x.toDecimal p).exponent = x := by
      rw [Decimal.toBinary64, negative_toDecimal] at hfound
      exact ofDecimal_eq_of_le_of_le (hcoarser hread) (by omega) (by omega) hread hfound
    rw [ofDecimal_mul_ten_pow] at hpower
    have := hcoarser hpower
    obtain rfl : n = 0 := by omega
    omega

/-! ### The order -/

/-- The decimal of a number is a multiple on the finest grid, one that reads back or the nearest. -/
theorem exists_multiple_toDecimal (x : Binary64) (p : ℕ) :
    ∃ j : ℕ, (x.toDecimal p).magnitude = j * 10 ^ (-(p : ℤ)) ∧
      (nearest x.isNegative (j * gridStep (-p)) = x ∨ j = nearestMultiple x.quanta (-p)) := by
  rcases toDecimal_spec x p with hback | ⟨-, hexponent, hdigits⟩
  · obtain ⟨j, hj, hmagnitude⟩ := exists_mul_gridStep (neg_le_exponent_toDecimal x p)
    rw [hback, negative_toDecimal] at hj
    exact ⟨j, hmagnitude, .inl hj.symm⟩
  · refine ⟨(x.toDecimal p).digits, ?_, .inr hdigits⟩
    rw [Decimal.magnitude, hexponent]

theorem hasPlaces_toDecimal (x : Binary64) (p : ℕ) : (x.toDecimal p).HasPlaces p := by
  obtain ⟨j, hj, -⟩ := exists_multiple_toDecimal x p
  exact ⟨j, hj⟩

section

variable (hx : x.isFinite = true) (hy : y.isFinite = true) (hsign : x.isNegative = y.isNegative)

include hx hy hsign

/-- A multiple that is read as a number lies on the same side of the others as the number. -/
theorem lt_of_nearest_lt {q q' : ℚ} (hq' : 0 ≤ q') (h : nearest x.isNegative q = x)
    (h' : nearest y.isNegative q' = y) (hlt : x.quanta < y.quanta) : q < q' := by
  by_contra hge
  have hmono := reach_nearest_mono x.isNegative hq' (le_of_not_gt hge)
  rw [h, hsign, h', reach_of_isFinite hx, reach_of_isFinite hy] at hmono
  omega

/-- Of two numbers with one sign, the one further from zero has no decimal closer to it. -/
theorem magnitude_toDecimal_mono (p : ℕ) (hle : x.magnitude ≤ y.magnitude) :
    (x.toDecimal p).magnitude ≤ (y.toDecimal p).magnitude := by
  have hstep := gridStep_pos (-p)
  rw [magnitude_le_iff] at hle
  rcases eq_or_lt_of_le hle with heq | hlt
  · have hxy : x = y := by
      rw [← nearest_quanta hx, ← nearest_quanta hy, hsign, heq]
    rw [hxy]
  obtain ⟨i, hi, hxi⟩ := exists_multiple_toDecimal x p
  obtain ⟨j, hj, hyj⟩ := exists_multiple_toDecimal y p
  have hij : i ≤ j := by
    rcases hxi with hxi | rfl
    · rcases hyj with hyj | rfl
      · -- both read back
        have := lt_of_nearest_lt hx hy hsign (by positivity) hxi hyj hlt
        have := lt_of_mul_lt_mul_right this hstep.le
        exact_mod_cast this.le
      · apply le_nearestMultiple
        exact (lt_of_nearest_lt hx hy hsign (by positivity) hxi (nearest_quanta hy) hlt).le
    · rcases hyj with hyj | rfl
      · apply nearestMultiple_le
        exact (lt_of_nearest_lt hx hy hsign (by positivity) (nearest_quanta hx) hyj hlt).le
      · -- neither does
        exact nearestMultiple_mono hlt.le _
  rw [hi, hj]
  exact mul_le_mul_of_nonneg_right (by exact_mod_cast hij) (by positivity)

end

/-- **A greater number has no lesser decimal.** -/
theorem value_toDecimal_mono (hx : x.isFinite = true) (hy : y.isFinite = true) (p : ℕ)
    (hle : x.value ≤ y.value) : (x.toDecimal p).value ≤ (y.toDecimal p).value := by
  have hxm := x.magnitude_nonneg
  have hym := y.magnitude_nonneg
  have hxd := (x.toDecimal p).magnitude_nonneg
  have hyd := (y.toDecimal p).magnitude_nonneg
  unfold value at hle
  unfold Decimal.value
  rw [negative_toDecimal, negative_toDecimal]
  cases hxs : x.isNegative with
  | false =>
    cases hys : y.isNegative with
    | false =>
      rw [hxs, hys] at hle
      exact magnitude_toDecimal_mono hx hy (hxs.trans hys.symm) p hle
    | true =>
      -- only a zero is not above a number with a minus sign, and that is the other zero
      rw [hxs, hys] at hle
      have hle' : x.magnitude ≤ -y.magnitude := hle
      rw [magnitude_toDecimal_eq_zero hx (by linarith),
        magnitude_toDecimal_eq_zero hy (by linarith)]
      simp
  | true =>
    cases hys : y.isNegative with
    | false =>
      show -(x.toDecimal p).magnitude ≤ (y.toDecimal p).magnitude
      linarith
    | true =>
      rw [hxs, hys] at hle
      have hle' : y.magnitude ≤ x.magnitude := neg_le_neg_iff.mp hle
      exact neg_le_neg (magnitude_toDecimal_mono hy hx (hys.trans hxs.symm) p hle')

end Binary64

end Calculator
