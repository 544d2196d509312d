import Calculator.Proofs.Binary64.Grid

/-!
# The decimal of a negated number

Rounding treats both signs alike, so a decimal and the one of the other sign are read as numbers of
opposite signs (`ofDecimal_neg`).  On every grid a number and its negation therefore have the same
multiple, and the decimals that stand for them differ in the sign alone (`toDecimal_neg`).
-/

namespace Calculator

/-- The decimal with the other sign. -/
def Decimal.neg (d : Decimal) : Decimal := { d with negative := !d.negative }

namespace Binary64

variable {x : Binary64}

theorem isNegative_neg (hx : x.isFinite = true) : x.neg.isNegative = !x.isNegative := by
  cases x with
  | nan | infinity => simp [isFinite] at hx
  | finite => rfl

theorem quanta_neg (x : Binary64) : x.neg.quanta = x.quanta := by
  cases x <;> rfl

theorem neg_inj {y : Binary64} : x.neg = y.neg ↔ x = y :=
  ⟨fun h => by rw [← neg_neg x, h, neg_neg], fun h => by rw [h]⟩

theorem isFinite_neg (x : Binary64) : x.neg.isFinite = x.isFinite := by
  cases x <;> rfl

theorem ofDecimal_neg (negative : Bool) (k : ℕ) (e : ℤ) :
    (ofDecimal negative k e).neg = ofDecimal (!negative) k e := by
  rw [ofDecimal_eq_nearest, ofDecimal_eq_nearest, neg_nearest]

theorem gridHit?_neg (hx : x.isFinite = true) (e : ℤ) : gridHit? x.neg e = gridHit? x e := by
  have hreads (k : ℕ) :
      ofDecimal x.neg.isNegative k e = x.neg ↔ ofDecimal x.isNegative k e = x := by
    rw [isNegative_neg hx, ← ofDecimal_neg, neg_inj]
  simp only [gridHit?, quanta_neg, hreads]

theorem shortest?_neg (hx : x.isFinite = true) (grids : ℕ) (e : ℤ) :
    shortest? x.neg grids e = (shortest? x grids e).map Decimal.neg := by
  induction grids generalizing e with
  | zero => rfl
  | succ grids ih =>
    rw [shortest?, shortest?, gridHit?_neg hx]
    split
    · rw [isNegative_neg hx]
      rfl
    · exact ih (e - 1)

/-- A number and its negation have the same decimal, but for the sign. -/
theorem toDecimal_neg (hx : x.isFinite = true) (p : ℕ) :
    x.neg.toDecimal p = (x.toDecimal p).neg := by
  have htop : x.neg.topExponent = x.topExponent := by rw [topExponent, topExponent, quanta_neg]
  rw [toDecimal, toDecimal, htop, shortest?_neg hx]
  cases shortest? x (x.topExponent + 1 + p) x.topExponent with
  | some d => rfl
  | none =>
    rw [quanta_neg, isNegative_neg hx]
    rfl

end Binary64

end Calculator
