import Calculator.Binary64.Shortest
import Calculator.Proofs.Binary64.Nearest
import Mathlib.Algebra.Order.Field.Power

/-!
# Decimal grids

The multiples of a power of ten form a grid, and `gridHit?` looks on it for a decimal that reads
back as a number.  It asks for the two neighbours of the number only and misses nothing
(`exists_gridHit?`), because the decimals that read back as one number have no gaps.

So there are two ways to be the decimal of a number (`toDecimal_spec`): to read back as it, or to be
the nearest multiple on the finest grid when no multiple there reads back.
-/

namespace Calculator

/-- The absolute value of a decimal, in units. -/
def Decimal.magnitude (d : Decimal) : ℚ := d.digits * 10 ^ d.exponent

namespace Binary64

/-- The number of quanta in one step of a grid. -/
def gridStep (exponent : ℤ) : ℚ := 10 ^ exponent * quantaPerUnit

theorem quantaPerUnit_eq : quantaPerUnit = 2 ^ 1074 := by
  unfold quantaPerUnit
  generalize 1074 = t
  rfl

theorem quantaPerUnit_pos : 0 < quantaPerUnit := by
  rw [quantaPerUnit_eq]
  positivity

theorem gridStep_pos (e : ℤ) : 0 < gridStep e := by
  have hquanta : (0 : ℚ) < quantaPerUnit := by exact_mod_cast quantaPerUnit_pos
  unfold gridStep
  positivity

theorem zpow_toNat {e : ℤ} (he : 0 ≤ e) : (10 : ℚ) ^ e = (10 ^ e.toNat : ℕ) := by
  rw [Nat.cast_pow, Nat.cast_ofNat, ← zpow_natCast, Int.toNat_of_nonneg he]

theorem zpow_neg_toNat {e : ℤ} (he : ¬0 ≤ e) : (10 : ℚ) ^ e = ((10 ^ (-e).toNat : ℕ) : ℚ)⁻¹ := by
  rw [← zpow_toNat (by omega), zpow_neg, inv_inv]

theorem ofDecimal_eq_nearest (negative : Bool) (k : ℕ) (e : ℤ) :
    ofDecimal negative k e = nearest negative (k * gridStep e) := by
  unfold ofDecimal gridStep
  rw [Nat.pow_eq, Nat.pow_eq]
  generalize quantaPerUnit = quanta
  split_ifs with he
  · rw [ofRatio_eq_nearest negative _ Nat.one_pos, zpow_toNat he]
    congr 1
    push_cast
    ring
  · rw [ofRatio_eq_nearest negative _ (Nat.pow_pos (by decide)), zpow_neg_toNat he]
    congr 1
    push_cast
    ring

theorem stepsRatio_spec (quanta : ℕ) (e : ℤ) :
    0 < (stepsRatio quanta e).2 ∧
      ((stepsRatio quanta e).1 : ℚ) / (stepsRatio quanta e).2 = quanta / gridStep e := by
  have hunit := quantaPerUnit_pos
  unfold stepsRatio gridStep
  rw [Nat.pow_eq, Nat.pow_eq]
  generalize quantaPerUnit = unit at hunit ⊢
  split_ifs with he
  · refine ⟨Nat.mul_pos (Nat.pow_pos (by decide)) hunit, ?_⟩
    rw [zpow_toNat he, Nat.cast_mul]
  · refine ⟨hunit, ?_⟩
    rw [zpow_neg_toNat he, Nat.cast_mul, inv_mul_eq_div, div_div_eq_mul_div]

/-! ### The decimals of one grid -/

section

variable {x : Binary64} {e : ℤ} {k : ℕ}

/-- The neighbour below is not above the number, and the next step is. -/
theorem stepsRatio_div_spec (quanta : ℕ) (e : ℤ) :
    ((stepsRatio quanta e).1 / (stepsRatio quanta e).2 : ℕ) * gridStep e ≤ quanta ∧
      quanta < ((stepsRatio quanta e).1 / (stepsRatio quanta e).2 + 1 : ℕ) * gridStep e := by
  obtain ⟨hpos, hratio⟩ := stepsRatio_spec quanta e
  have hstep := gridStep_pos e
  have hpos' : (0 : ℚ) < (stepsRatio quanta e).2 := by exact_mod_cast hpos
  constructor
  · rw [← le_div_iff₀ hstep, ← hratio, le_div_iff₀ hpos']
    exact_mod_cast Nat.div_mul_le_self _ _
  · rw [← div_lt_iff₀ hstep, ← hratio, div_lt_iff₀ hpos']
    exact_mod_cast (Nat.div_lt_iff_lt_mul hpos).mp (Nat.lt_succ_self _)

/-- The multiple on a grid that is nearest to a number of quanta. -/
def nearestMultiple (quanta : ℕ) (e : ℤ) : ℕ :=
  roundDiv (stepsRatio quanta e).1 (stepsRatio quanta e).2

theorem abs_nearestMultiple_mul_sub_le (quanta : ℕ) (e : ℤ) :
    |(nearestMultiple quanta e * gridStep e : ℚ) - quanta| ≤ gridStep e / 2 := by
  obtain ⟨hpos, hratio⟩ := stepsRatio_spec quanta e
  have hstep := gridStep_pos e
  have hhalf := abs_roundDiv_sub_le_half (stepsRatio quanta e).1 hpos
  rw [hratio, ← nearestMultiple] at hhalf
  calc |(nearestMultiple quanta e * gridStep e : ℚ) - quanta|
      = |(nearestMultiple quanta e : ℚ) - quanta / gridStep e| * gridStep e := by
        rw [← abs_of_pos hstep, ← abs_mul, abs_of_pos hstep, sub_mul, div_mul_cancel₀ _ hstep.ne']
    _ ≤ 1 / 2 * gridStep e := mul_le_mul_of_nonneg_right hhalf hstep.le
    _ = gridStep e / 2 := by ring

theorem nearestMultiple_le {quanta b : ℕ} {e : ℤ} (h : (quanta : ℚ) ≤ b * gridStep e) :
    nearestMultiple quanta e ≤ b := by
  obtain ⟨hpos, hratio⟩ := stepsRatio_spec quanta e
  rw [← roundDiv_one b]
  refine roundDiv_mono hpos Nat.one_pos ?_
  rw [hratio, Nat.cast_one, div_one, div_le_iff₀ (gridStep_pos e)]
  exact h

theorem le_nearestMultiple {quanta b : ℕ} {e : ℤ} (h : b * gridStep e ≤ quanta) :
    b ≤ nearestMultiple quanta e := by
  obtain ⟨hpos, hratio⟩ := stepsRatio_spec quanta e
  rw [← roundDiv_one b]
  refine roundDiv_mono Nat.one_pos hpos ?_
  rw [hratio, Nat.cast_one, div_one, le_div_iff₀ (gridStep_pos e)]
  exact h

theorem nearestMultiple_mono {quanta quanta' : ℕ} (h : quanta ≤ quanta') (e : ℤ) :
    nearestMultiple quanta e ≤ nearestMultiple quanta' e := by
  obtain ⟨hpos, hratio⟩ := stepsRatio_spec quanta e
  obtain ⟨hpos', hratio'⟩ := stepsRatio_spec quanta' e
  refine roundDiv_mono hpos hpos' ?_
  rw [hratio, hratio']
  exact div_le_div_of_nonneg_right (by exact_mod_cast h) (gridStep_pos e).le

theorem roundDiv_eq_or (a b : ℕ) : roundDiv a b = a / b ∨ roundDiv a b = a / b + 1 := by
  unfold roundDiv
  dsimp only
  split_ifs
  · exact .inl rfl
  · exact .inr rfl

theorem ofDecimal_of_gridHit? (h : gridHit? x e = some k) : ofDecimal x.isNegative k e = x := by
  unfold gridHit? at h
  dsimp only at h
  set n := (stepsRatio x.quanta e).1
  set d := (stepsRatio x.quanta e).2
  split at h
  · rename_i hbelow habove
    rcases roundDiv_eq_or n d with heq | heq
    · rw [heq, Option.some.injEq] at h
      exact h ▸ of_decide_eq_true hbelow
    · rw [heq, Option.some.injEq] at h
      exact h ▸ of_decide_eq_true habove
  · rename_i hbelow _
    rw [Option.some.injEq] at h
    exact h ▸ of_decide_eq_true hbelow
  · rename_i _ habove
    rw [Option.some.injEq] at h
    exact h ▸ of_decide_eq_true habove
  · exact absurd h (by simp)

/-- **A grid that holds a decimal of a number is not missed.** -/
theorem exists_gridHit? (hx : x.isFinite = true) (h : ofDecimal x.isNegative k e = x) :
    ∃ k', gridHit? x e = some k' := by
  obtain ⟨hlower, hupper⟩ := stepsRatio_div_spec x.quanta e
  have hstep := gridStep_pos e
  have hself := nearest_quanta hx
  rw [ofDecimal_eq_nearest] at h
  set below := (stepsRatio x.quanta e).1 / (stepsRatio x.quanta e).2 with hbelow
  -- between `k` and the number lies one of its neighbours, if neither is `k` itself
  have hneighbour : ofDecimal x.isNegative below e = x ∨
      ofDecimal x.isNegative (below + 1) e = x := by
    rw [ofDecimal_eq_nearest, ofDecimal_eq_nearest]
    rcases Nat.lt_or_ge below k with hlt | hle
    · -- the number lies before the next step, and `k` does not
      have hk : ((below + 1 : ℕ) : ℚ) * gridStep e ≤ k * gridStep e :=
        mul_le_mul_of_nonneg_right (by exact_mod_cast hlt) hstep.le
      have := nearest_eq_of_le_of_le x.isNegative (Nat.cast_nonneg x.quanta) hupper.le hk
        (hself.trans h.symm)
      exact .inr (this.trans hself)
    · have hk : (k : ℚ) * gridStep e ≤ below * gridStep e :=
        mul_le_mul_of_nonneg_right (by exact_mod_cast hle) hstep.le
      have := nearest_eq_of_le_of_le x.isNegative (by positivity) hk hlower (h.trans hself.symm)
      exact .inl (this.trans h)
  unfold gridHit?
  dsimp only
  rw [← hbelow]
  rcases hneighbour with h | h
  · cases hnext : decide (ofDecimal x.isNegative (below + 1) e = x) <;> simp [h]
  · cases hfirst : decide (ofDecimal x.isNegative below e = x) <;> simp [h]

end

/-! ### The walk over the grids -/

section

variable {x : Binary64}

/-- The walk stops at the first grid that holds a decimal of the number. -/
theorem shortest?_spec {grids : ℕ} {e : ℤ} {d : Decimal} (h : shortest? x grids e = some d) :
    d.negative = x.isNegative ∧ gridHit? x d.exponent = some d.digits ∧
      e - grids < d.exponent ∧ d.exponent ≤ e ∧
      ∀ e', d.exponent < e' → e' ≤ e → gridHit? x e' = none := by
  induction grids generalizing e with
  | zero => exact absurd h (by simp [shortest?])
  | succ grids ih =>
    rw [shortest?] at h
    split at h
    · rename_i k hk
      rw [Option.some.injEq] at h
      subst h
      refine ⟨rfl, hk, ?_, le_refl _, ?_⟩
      · show e - ((grids + 1 : ℕ) : ℤ) < e
        omega
      · intro e' hlt hle
        exact absurd hlt (not_lt.mpr hle)
    · rename_i hnone
      obtain ⟨hsign, hhit, hfiner, hle, hcoarser⟩ := ih h
      refine ⟨hsign, hhit, by omega, by omega, ?_⟩
      intro e' hlt hle'
      rcases eq_or_lt_of_le hle' with rfl | hlt'
      · exact hnone
      · exact hcoarser e' hlt (by omega)

theorem toBinary64_of_shortest? {grids : ℕ} {e : ℤ} {d : Decimal}
    (h : shortest? x grids e = some d) : d.toBinary64 = x := by
  obtain ⟨hsign, hhit, -⟩ := shortest?_spec h
  rw [Decimal.toBinary64, hsign]
  exact ofDecimal_of_gridHit? hhit

theorem gridHit?_of_shortest?_eq_none {grids : ℕ} {e : ℤ} (h : shortest? x grids e = none) {i : ℕ}
    (hi : i < grids) : gridHit? x (e - i) = none := by
  induction grids generalizing e i with
  | zero => exact absurd hi (Nat.not_lt_zero i)
  | succ grids ih =>
    rw [shortest?] at h
    split at h
    · exact absurd h (by simp)
    · rename_i hnone
      cases i with
      | zero => simpa using hnone
      | succ i =>
        have := ih h (Nat.lt_of_succ_lt_succ hi)
        rw [Nat.cast_succ, add_comm, ← sub_sub]
        exact this

theorem negative_toDecimal (x : Binary64) (p : ℕ) : (x.toDecimal p).negative = x.isNegative := by
  unfold toDecimal
  split
  · rename_i d hd
    exact (shortest?_spec hd).1
  · rfl

theorem neg_le_exponent_toDecimal (x : Binary64) (p : ℕ) : -(p : ℤ) ≤ (x.toDecimal p).exponent := by
  unfold toDecimal
  split
  · rename_i d hd
    obtain ⟨-, -, hfiner, -⟩ := shortest?_spec hd
    omega
  · exact le_refl _

/-- The decimal of a number reads back as it, or no multiple on the finest grid does and it is the
nearest one there. -/
theorem toDecimal_spec (x : Binary64) (p : ℕ) :
    (x.toDecimal p).toBinary64 = x ∨
      gridHit? x (-p) = none ∧ (x.toDecimal p).exponent = -p ∧
        (x.toDecimal p).digits = nearestMultiple x.quanta (-p) := by
  unfold toDecimal
  split
  · rename_i d hd
    exact .inl (toBinary64_of_shortest? hd)
  · rename_i hnone
    refine .inr ⟨?_, rfl, rfl⟩
    have hlast := gridHit?_of_shortest?_eq_none hnone (i := x.topExponent + p) (by omega)
    have hexponent : (x.topExponent : ℤ) - (x.topExponent + p : ℕ) = -p := by
      push_cast
      ring
    exact hexponent ▸ hlast

end

end Binary64

end Calculator
