import Calculator.Binary64.Rounding
import Mathlib.Algebra.Order.Field.Basic
import Mathlib.Algebra.Order.Field.Rat
import Mathlib.Tactic.FieldSimp
import Mathlib.Tactic.Linarith
import Mathlib.Tactic.NormNum
import Mathlib.Tactic.Positivity
import Mathlib.Tactic.Ring

/-!
# The nearest number

`nearest negative q` is the floating-point number nearest to a rational number `q` of quanta, and
`ofRatio` computes it (`ofRatio_eq_nearest`).

Numbers are compared through `reach`, the number of quanta of a finite number, where an infinity
counts as the first number beyond the format.  With that convention one statement covers all
magnitudes: no number of the format is nearer to `q` than `nearest negative q`
(`abs_reach_nearest_sub_le`), and as the step from the greatest finite number to the infinity is as
long as the step before it, the result is an infinity from half a step above the greatest finite
number on.  From there it follows that `nearest` is monotone (`reach_nearest_mono`), gives every
number back (`nearest_reach`) and is off by at most half a step (`abs_reach_nearest_sub_le_half`).

All of them rest on `exists_scale`, which says how `ofRatio` finds its result: it takes the scale at
which `q` has 53 bits before the point and rounds to an integer there (`exists_significand`).
-/

namespace Calculator

/-! ### The nearest integer -/

section

variable {a b a' b' : ℕ}

theorem roundDiv_mul_mul_right (a b : ℕ) {k : ℕ} (hk : 0 < k) :
    roundDiv (a * k) (b * k) = roundDiv a b := by
  have hquotient : a * k / (b * k) = a / b := Nat.mul_div_mul_right a b hk
  have hrest : 2 * (a * k % (b * k)) = 2 * (a % b) * k := by
    rw [Nat.mul_mod_mul_right, Nat.mul_assoc]
  have hlt : 2 * (a % b) * k < b * k ↔ 2 * (a % b) < b := Nat.mul_lt_mul_right hk
  have heq : 2 * (a % b) * k = b * k ↔ 2 * (a % b) = b := Nat.mul_left_inj hk.ne'
  unfold roundDiv
  simp only [hquotient, hrest, hlt, heq]

theorem roundDiv_congr (hb : 0 < b) (hb' : 0 < b') (h : (a : ℚ) / b = a' / b') :
    roundDiv a b = roundDiv a' b' := by
  have hcross : a * b' = a' * b := by
    rw [div_eq_div_iff (by positivity) (by positivity)] at h
    exact_mod_cast h
  calc roundDiv a b = roundDiv (a * b') (b * b') := (roundDiv_mul_mul_right a b hb').symm
    _ = roundDiv (a' * b) (b' * b) := by rw [hcross, Nat.mul_comm b b']
    _ = roundDiv a' b' := roundDiv_mul_mul_right a' b' hb

theorem cast_div_eq_add (a : ℕ) (hb : 0 < b) :
    (a : ℚ) / b = (a / b : ℕ) + ((a % b : ℕ) : ℚ) / b := by
  have hb' : (0 : ℚ) < b := by exact_mod_cast hb
  have hdiv : (a : ℚ) = b * (a / b : ℕ) + (a % b : ℕ) := by
    exact_mod_cast (Nat.div_add_mod a b).symm
  rw [eq_comm, ← sub_eq_zero]
  field_simp
  linarith

theorem abs_roundDiv_sub_le_half (a : ℕ) (hb : 0 < b) :
    |(roundDiv a b : ℚ) - a / b| ≤ 1 / 2 := by
  have hb' : (0 : ℚ) < b := by exact_mod_cast hb
  have hrest : ((a % b : ℕ) : ℚ) < b := by exact_mod_cast Nat.mod_lt a hb
  rw [cast_div_eq_add a hb]
  unfold roundDiv
  dsimp only
  split_ifs with h
  · have hle : (2 : ℚ) * (a % b : ℕ) ≤ b := by
      have : 2 * (a % b) ≤ b := by omega
      exact_mod_cast this
    have hfrac : ((a % b : ℕ) : ℚ) / b ≤ 1 / 2 := by
      rw [div_le_iff₀ hb']
      linarith
    have hpos : 0 ≤ ((a % b : ℕ) : ℚ) / b := by positivity
    rw [abs_le]
    constructor <;> linarith
  · have hle : (b : ℚ) ≤ 2 * (a % b : ℕ) := by
      have : b ≤ 2 * (a % b) := by omega
      exact_mod_cast this
    have hfrac : 1 / 2 ≤ ((a % b : ℕ) : ℚ) / b := by
      rw [le_div_iff₀ hb']
      linarith
    have hone : ((a % b : ℕ) : ℚ) / b < 1 := by
      rw [div_lt_one hb']
      exact hrest
    push_cast
    rw [abs_le]
    constructor <;> linarith

/-- No integer is nearer. -/
theorem abs_roundDiv_sub_le (a : ℕ) (hb : 0 < b) (k : ℕ) :
    |(roundDiv a b : ℚ) - a / b| ≤ |(k : ℚ) - a / b| := by
  have hhalf := abs_roundDiv_sub_le_half a hb
  rcases Nat.lt_trichotomy k (roundDiv a b) with hlt | heq | hgt
  · have hstep : (k : ℚ) + 1 ≤ roundDiv a b := by exact_mod_cast hlt
    have habs := abs_le.mp hhalf
    have hneg := neg_abs_le ((k : ℚ) - a / b)
    linarith
  · rw [heq]
  · have hstep : (roundDiv a b : ℚ) + 1 ≤ k := by exact_mod_cast hgt
    have habs := abs_le.mp hhalf
    have hpos := le_abs_self ((k : ℚ) - a / b)
    linarith

/-- Of two integers that are as near the even one is taken. -/
theorem even_roundDiv (hb : 0 < b) {k : ℕ} (hk : k ≠ roundDiv a b)
    (htie : |(roundDiv a b : ℚ) - a / b| = |(k : ℚ) - a / b|) : Even (roundDiv a b) := by
  have hb' : (0 : ℚ) < b := by exact_mod_cast hb
  -- two integers are at least one apart, so both are half a step away
  have hhalf : |(roundDiv a b : ℚ) - a / b| = 1 / 2 := by
    refine le_antisymm (abs_roundDiv_sub_le_half a hb) ?_
    have hstep : (1 : ℚ) ≤ |(k : ℚ) - roundDiv a b| := by
      exact_mod_cast Int.one_le_abs (by omega : (k : ℤ) - roundDiv a b ≠ 0)
    have hsum := abs_sub_le (k : ℚ) (a / b) (roundDiv a b)
    rw [abs_sub_comm (a / b : ℚ)] at hsum
    linarith
  rw [cast_div_eq_add a hb] at hhalf
  have hrest : 0 ≤ ((a % b : ℕ) : ℚ) / b := by positivity
  have hrest' : ((a % b : ℕ) : ℚ) / b < 1 := by
    rw [div_lt_one hb']
    exact_mod_cast Nat.mod_lt a hb
  have hmiddle (h : ((a % b : ℕ) : ℚ) / b = 1 / 2) : 2 * (a % b) = b := by
    rw [div_eq_iff hb'.ne'] at h
    have : (2 : ℚ) * (a % b : ℕ) = b := by linarith
    exact_mod_cast this
  unfold roundDiv at hhalf ⊢
  dsimp only at hhalf ⊢
  rw [Nat.even_iff]
  split_ifs at hhalf ⊢ with h
  · rw [sub_add_cancel_left, abs_neg, abs_of_nonneg hrest] at hhalf
    have := hmiddle hhalf
    omega
  · push_cast at hhalf
    rw [add_sub_add_left_eq_sub, abs_of_pos (by linarith)] at hhalf
    have := hmiddle (by linarith)
    omega

theorem roundDiv_mono (hb : 0 < b) (hb' : 0 < b') (h : (a : ℚ) / b ≤ a' / b') :
    roundDiv a b ≤ roundDiv a' b' := by
  by_contra hnot
  have hstep : (roundDiv a' b' : ℚ) + 1 ≤ roundDiv a b := by exact_mod_cast Nat.lt_of_not_le hnot
  have hleft := abs_le.mp (abs_roundDiv_sub_le_half a hb)
  have hright := abs_le.mp (abs_roundDiv_sub_le_half a' hb')
  -- only equal ratios leave room, and these are rounded alike
  have heq : (a : ℚ) / b = a' / b' := by linarith
  exact hnot (roundDiv_congr hb hb' heq).le

@[simp] theorem roundDiv_one (a : ℕ) : roundDiv a 1 = a := by
  simp [roundDiv, Nat.mod_one]

end

namespace Binary64

/-! ### How far a number reaches -/

/-- The number of quanta of the first number beyond the format. -/
def beyond : ℕ := 2 ^ 2098

theorem two_pow_le_beyond_iff (t : ℕ) : 2 ^ t ≤ beyond ↔ t ≤ 2098 := by
  rw [beyond, Nat.pow_le_pow_iff_right (by decide)]

theorem beyond_le_two_pow_iff (t : ℕ) : beyond ≤ 2 ^ t ↔ 2098 ≤ t := by
  rw [beyond, Nat.pow_le_pow_iff_right (by decide)]

/-- The number of quanta of a number, where an infinity counts as the first number beyond the
format. -/
def reach : Binary64 → ℕ
  | nan => 0
  | infinity _ => beyond
  | finite _ significand scale _ => significand * 2 ^ scale

theorem reach_of_isFinite {x : Binary64} (hx : x.isFinite = true) : x.reach = x.quanta := by
  cases x with
  | nan | infinity => simp [isFinite] at hx
  | finite => rfl

theorem ne_nan_of_isFinite {x : Binary64} (hx : x.isFinite = true) : x ≠ nan := by
  rintro rfl
  simp [isFinite] at hx

theorem reach_lt_of_isFinite {x : Binary64} (hx : x.isFinite = true) : x.reach < beyond := by
  cases x with
  | nan | infinity => simp [isFinite] at hx
  | finite negative significand scale canonical =>
    have hsignificand : significand < 2 ^ 53 := canonical.1
    have hscale : scale ≤ 2045 := canonical.2.1
    calc significand * 2 ^ scale < 2 ^ 53 * 2 ^ scale :=
          Nat.mul_lt_mul_of_pos_right hsignificand (Nat.two_pow_pos scale)
      _ = 2 ^ (53 + scale) := (Nat.pow_add 2 53 scale).symm
      _ ≤ beyond := (two_pow_le_beyond_iff _).mpr (by omega)

theorem reach_le_beyond (x : Binary64) : x.reach ≤ beyond := by
  cases x with
  | nan => exact Nat.zero_le _
  | infinity => exact Nat.le_refl _
  | finite negative significand scale canonical =>
    exact (reach_lt_of_isFinite (x := finite negative significand scale canonical) rfl).le

theorem isFinite_of_reach_lt {x : Binary64} (hx : x ≠ nan) (h : x.reach < beyond) :
    x.isFinite = true := by
  cases x with
  | nan => exact absurd rfl hx
  | infinity negative =>
    have hlt : (infinity negative).reach < (infinity negative).reach := h
    exact absurd rfl hlt.ne
  | finite => rfl

/-- Numbers that need 53 bits at a scale, or more, lie on the grid of that scale. -/
theorem two_pow_dvd_reach {x : Binary64} {t : ℕ} (h : 2 ^ (52 + t) ≤ x.reach) :
    2 ^ t ∣ x.reach := by
  cases x with
  | nan => exact absurd h (Nat.not_le_of_gt (Nat.two_pow_pos _))
  | infinity =>
    have hle : 52 + t ≤ 2098 := (two_pow_le_beyond_iff _).mp h
    unfold reach beyond
    exact pow_dvd_pow 2 (by omega)
  | finite negative significand scale canonical =>
    have hsignificand : significand < 2 ^ 53 := canonical.1
    have hlt : 2 ^ (52 + t) < 2 ^ (53 + scale) := by
      calc 2 ^ (52 + t) ≤ significand * 2 ^ scale := h
        _ < 2 ^ 53 * 2 ^ scale :=
          Nat.mul_lt_mul_of_pos_right hsignificand (Nat.two_pow_pos scale)
        _ = 2 ^ (53 + scale) := (Nat.pow_add 2 53 scale).symm
    have hle : 52 + t < 53 + scale := (Nat.pow_lt_pow_iff_right (by decide)).mp hlt
    exact Dvd.dvd.mul_left (Nat.pow_dvd_pow 2 (by omega)) significand

/-- The larger of two scales takes the smaller significand, but a significand of 53 bits cannot get
smaller any more. -/
theorem scale_le_of_mul_eq {m m' s s' : ℕ} (hm : m < 2 ^ 53) (h' : 2 ^ 52 ≤ m' ∨ s' = 0)
    (h : m * 2 ^ s = m' * 2 ^ s') : s' ≤ s := by
  by_contra hlt
  obtain ⟨k, rfl⟩ : ∃ k, s' = s + (k + 1) := ⟨s' - s - 1, by omega⟩
  have hm' : m = m' * 2 ^ (k + 1) := by
    rw [Nat.pow_add, ← Nat.mul_assoc, Nat.mul_right_comm] at h
    exact Nat.mul_right_cancel (Nat.two_pow_pos s) h
  have hge : 2 ^ 52 ≤ m' := h'.resolve_right (by omega)
  have : 2 ^ 52 * 2 ^ 1 ≤ m' * 2 ^ (k + 1) :=
    Nat.mul_le_mul hge (Nat.pow_le_pow_right (by decide) (by omega))
  omega

/-- A number is known by its sign and how far it reaches. -/
theorem eq_of_reach_eq {x y : Binary64} (hx : x ≠ nan) (hy : y ≠ nan)
    (hsign : x.isNegative = y.isNegative) (h : x.reach = y.reach) : x = y := by
  cases x with
  | nan => exact absurd rfl hx
  | infinity negative =>
    cases y with
    | nan => exact absurd rfl hy
    | infinity negative' => exact congrArg infinity hsign
    | finite negative' m' s' c' =>
      have hlt := reach_lt_of_isFinite (x := finite negative' m' s' c') rfl
      exact absurd h (Nat.ne_of_gt hlt)
  | finite negative m s c =>
    cases y with
    | nan => exact absurd rfl hy
    | infinity negative' =>
      have hlt := reach_lt_of_isFinite (x := finite negative m s c) rfl
      exact absurd h (Nat.ne_of_lt hlt)
    | finite negative' m' s' c' =>
      have h : m * 2 ^ s = m' * 2 ^ s' := h
      have hscale : s = s' :=
        Nat.le_antisymm (scale_le_of_mul_eq c'.1 c.2.2 h.symm) (scale_le_of_mul_eq c.1 c'.2.2 h)
      subst hscale
      have hsignificand : m = m' := Nat.mul_right_cancel (Nat.two_pow_pos s) h
      subst hsignificand
      have hsign : negative = negative' := hsign
      rw [hsign]

/-! ### Rounding a ratio -/

/-- What `ofRatio` does with the significand that it has rounded: beyond 53 bits it moves on to the
next scale, and beyond the last scale there is only the infinity. -/
theorem ofQuanta_spec (negative : Bool) {m s : ℕ} (hm : m ≤ 2 ^ 53) (hs : s = 0 ∨ 2 ^ 52 ≤ m)
    {x : Binary64}
    (hx : x = if m = 2 ^ 53 then ofQuanta negative (2 ^ 52) (s + 1) else ofQuanta negative m s) :
    x ≠ nan ∧ x.isNegative = negative ∧ x.reach = min (m * 2 ^ s) (beyond) := by
  -- one statement for both branches: a canonical pair is kept, and any other lies beyond
  have hkeep {m s : ℕ} (hm : m < 2 ^ 53) (hs : 2 ^ 52 ≤ m ∨ s = 0) :
      ofQuanta negative m s ≠ nan ∧ (ofQuanta negative m s).isNegative = negative ∧
        (ofQuanta negative m s).reach = min (m * 2 ^ s) (beyond) := by
    unfold ofQuanta
    by_cases hscale : s ≤ 2045
    · have hcanonical : Canonical m s := ⟨hm, hscale, hs⟩
      rw [dif_pos hcanonical]
      have hlt := reach_lt_of_isFinite (x := finite negative m s hcanonical) rfl
      exact ⟨by simp, rfl, (Nat.min_eq_left hlt.le).symm⟩
    · rw [dif_neg fun h => hscale h.2.1]
      have hge : 2 ^ 52 ≤ m := hs.resolve_right (by omega)
      have hbeyond : beyond ≤ m * 2 ^ s := by
        calc beyond ≤ 2 ^ (52 + s) := (beyond_le_two_pow_iff _).mpr (by omega)
          _ = 2 ^ 52 * 2 ^ s := Nat.pow_add 2 52 s
          _ ≤ m * 2 ^ s := Nat.mul_le_mul_right _ hge
      exact ⟨by simp, rfl, (Nat.min_eq_right hbeyond).symm⟩
  rw [hx]
  split_ifs with hfull
  · have hcarry : m * 2 ^ s = 2 ^ 52 * 2 ^ (s + 1) := by
      rw [hfull, Nat.pow_succ 2 s]
      ring
    rw [hcarry]
    exact hkeep (by decide) (.inl (Nat.le_refl _))
  · exact hkeep (by omega) hs.symm

/-- The number nearest to a rational number of quanta. -/
def nearest (negative : Bool) (q : ℚ) : Binary64 := ofRatio negative q.num.toNat q.den

theorem ofRatio_mul_mul_right (negative : Bool) (n d : ℕ) {k : ℕ} (hk : 0 < k) :
    ofRatio negative (n * k) (d * k) = ofRatio negative n d := by
  unfold ofRatio
  simp only [Nat.mul_div_mul_right n d hk, Nat.mul_right_comm d k, roundDiv_mul_mul_right _ _ hk]

theorem num_toNat_div_den {q : ℚ} (hq : 0 ≤ q) : (q.num.toNat : ℚ) / q.den = q := by
  have hnum : ((q.num.toNat : ℤ) : ℚ) = q.num := by
    rw [Int.toNat_of_nonneg (Rat.num_nonneg.mpr hq)]
  rw [Int.cast_natCast] at hnum
  rw [hnum, Rat.num_div_den]

theorem ofRatio_eq_nearest (negative : Bool) (n : ℕ) {d : ℕ} (hd : 0 < d) :
    ofRatio negative n d = nearest negative ((n : ℚ) / d) := by
  have hq : (0 : ℚ) ≤ (n : ℚ) / d := by positivity
  set q : ℚ := (n : ℚ) / d with hdef
  have hcross : n * q.den = q.num.toNat * d := by
    have h : (n : ℚ) / d = (q.num.toNat : ℚ) / q.den := (num_toNat_div_den hq).symm
    rw [div_eq_div_iff (by positivity) (by have := q.den_pos; positivity)] at h
    exact_mod_cast h
  calc ofRatio negative n d = ofRatio negative (n * q.den) (d * q.den) :=
        (ofRatio_mul_mul_right negative n d q.den_pos).symm
    _ = ofRatio negative (q.num.toNat * d) (q.den * d) := by rw [hcross, Nat.mul_comm d q.den]
    _ = nearest negative q := ofRatio_mul_mul_right negative _ _ hd

/-- Where the rounding takes place: at the scale `s` that leaves 53 bits before the point, or at the
least scale if there are fewer, the ratio `a / b` is rounded to an integer. -/
theorem exists_scale (negative : Bool) {q : ℚ} (hq : 0 ≤ q) :
    ∃ a b s : ℕ, 0 < b ∧ (a : ℚ) / b = q / 2 ^ s ∧ q < 2 ^ (53 + s) ∧
      (s = 0 ∨ 2 ^ (52 + s) ≤ q) ∧
      nearest negative q =
        if roundDiv a b = 2 ^ 53 then ofQuanta negative (2 ^ 52) (s + 1)
        else ofQuanta negative (roundDiv a b) s := by
  set n := q.num.toNat with hn
  set d := q.den with hd
  have hdpos : 0 < d := q.den_pos
  have hnd : (n : ℚ) / d = q := num_toNat_div_den hq
  set s := (n / d).log2 - 52 with hs
  have hscaled : (n : ℚ) / (d * 2 ^ s : ℕ) = q / 2 ^ s := by
    rw [← hnd]
    push_cast
    rw [div_div]
  -- the whole part of `q` has `s + 53` bits, or less at the least scale
  have hupper : q < 2 ^ (53 + s) := by
    have hlt : n / d < 2 ^ (53 + s) :=
      lt_of_lt_of_le Nat.lt_log2_self (Nat.pow_le_pow_right (by decide) (by omega))
    have hlt' : n < 2 ^ (53 + s) * d := (Nat.div_lt_iff_lt_mul hdpos).mp hlt
    rw [← hnd, div_lt_iff₀ (by positivity)]
    exact_mod_cast hlt'
  have hlower : s = 0 ∨ (2 : ℚ) ^ (52 + s) ≤ q := by
    rcases Nat.eq_zero_or_pos s with h0 | hpos
    · exact .inl h0
    · have hne : n / d ≠ 0 := by
        intro h0
        rw [h0] at hs
        simp at hs
        omega
      have hlog : 52 + s = (n / d).log2 := by omega
      have hle : 2 ^ (52 + s) ≤ n / d := hlog ▸ Nat.log2_self_le hne
      have hle' : 2 ^ (52 + s) * d ≤ n := (Nat.le_div_iff_mul_le hdpos).mp hle
      rw [← hnd, le_div_iff₀ (by positivity)]
      exact .inr (by exact_mod_cast hle')
  exact ⟨n, d * 2 ^ s, s, Nat.mul_pos hdpos (Nat.two_pow_pos s), hscaled, hupper, hlower, rfl⟩

/-- At that scale the nearest significand is `m`. -/
theorem exists_significand (negative : Bool) {q : ℚ} (hq : 0 ≤ q) :
    ∃ m s : ℕ, q < 2 ^ (53 + s) ∧ (s = 0 ∨ 2 ^ (52 + s) ≤ q) ∧ m ≤ 2 ^ 53 ∧
      (∀ k : ℕ, |(m : ℚ) - q / 2 ^ s| ≤ |(k : ℚ) - q / 2 ^ s|) ∧
      |(m : ℚ) - q / 2 ^ s| ≤ 1 / 2 ∧
      nearest negative q ≠ nan ∧ (nearest negative q).isNegative = negative ∧
      (nearest negative q).reach = min (m * 2 ^ s) (beyond) := by
  obtain ⟨a, b, s, hb, hratio, hupper, hlower, hnearest⟩ := exists_scale negative hq
  set m := roundDiv a b
  have hhalf : |(m : ℚ) - q / 2 ^ s| ≤ 1 / 2 := hratio ▸ abs_roundDiv_sub_le_half a hb
  have hm53 : m ≤ 2 ^ 53 := by
    have hlt : q / 2 ^ s < 2 ^ 53 := by
      rw [div_lt_iff₀ (by positivity), ← pow_add]
      exact hupper
    have hlt' : (m : ℚ) < 2 ^ 53 + 1 := by
      have := (abs_le.mp hhalf).2
      linarith
    exact Nat.le_of_lt_succ (by exact_mod_cast hlt')
  have hm52 : s = 0 ∨ 2 ^ 52 ≤ m := by
    refine hlower.imp_right fun h => ?_
    have hle : (2 : ℚ) ^ 52 ≤ q / 2 ^ s := by
      rw [le_div_iff₀ (by positivity), ← pow_add]
      exact h
    have hlt : (2 : ℚ) ^ 52 < m + 1 := by
      have := (abs_le.mp hhalf).1
      linarith
    exact Nat.le_of_lt_succ (by exact_mod_cast hlt)
  refine ⟨m, s, hupper, hlower, hm53, fun k => hratio ▸ abs_roundDiv_sub_le a hb k, hhalf, ?_⟩
  exact ofQuanta_spec negative hm53 hm52 hnearest

/-! ### What nearest means -/

section

variable (negative : Bool) {q q' : ℚ}

theorem nearest_ne_nan (hq : 0 ≤ q) : nearest negative q ≠ nan := by
  obtain ⟨m, s, -, -, -, -, -, hnan, -, -⟩ := exists_significand negative hq
  exact hnan

theorem isNegative_nearest (hq : 0 ≤ q) : (nearest negative q).isNegative = negative := by
  obtain ⟨m, s, -, -, -, -, -, -, hsign, -⟩ := exists_significand negative hq
  exact hsign

theorem abs_mul_two_pow_sub (m q : ℚ) (s : ℕ) :
    |m * 2 ^ s - q| = |m - q / 2 ^ s| * 2 ^ s := by
  have hpos : (0 : ℚ) < 2 ^ s := by positivity
  rw [← abs_of_pos hpos, ← abs_mul, abs_of_pos hpos]
  congr 1
  field_simp

/-- Where all 53 bits are in use, what is as near as the least such number lies on the grid of the
scale: anything off the grid is less than that number, which is no greater than `q`. -/
theorem two_pow_dvd_reach_of_abs_sub_le {x : Binary64} {s : ℕ} (hlower : s = 0 ∨ 2 ^ (52 + s) ≤ q)
    (h : |(x.reach : ℚ) - q| ≤ |2 ^ (52 + s) - q|) : 2 ^ s ∣ x.reach := by
  rcases hlower with rfl | hpow
  · simp
  · by_contra hdvd
    have hbelow : (x.reach : ℚ) < 2 ^ (52 + s) := by
      have hlt : x.reach < 2 ^ (52 + s) := by
        by_contra hge
        exact hdvd (two_pow_dvd_reach (Nat.le_of_not_lt hge))
      exact_mod_cast hlt
    rw [abs_of_nonpos (by linarith), abs_of_nonpos (sub_nonpos.mpr hpow)] at h
    linarith

/-- **No number is nearer.** -/
theorem abs_reach_nearest_sub_le (hq : 0 ≤ q) (x : Binary64) :
    |((nearest negative q).reach : ℚ) - q| ≤ |(x.reach : ℚ) - q| := by
  obtain ⟨m, s, hupper, hlower, hm53, hnear, hhalf, -, -, hreach⟩ := exists_significand negative hq
  rw [hreach]
  by_cases hle : m * 2 ^ s ≤ beyond
  · rw [Nat.min_eq_left hle, Nat.cast_mul, Nat.cast_pow, Nat.cast_ofNat]
    -- a multiple of `2 ^ s` is no nearer than the significand says
    have hgrid (k : ℕ) : |(m : ℚ) * 2 ^ s - q| ≤ |(k : ℚ) * 2 ^ s - q| := by
      rw [abs_mul_two_pow_sub, abs_mul_two_pow_sub]
      exact mul_le_mul_of_nonneg_right (hnear k) (by positivity)
    by_contra hlt
    have hfirst := hgrid (2 ^ 52)
    rw [Nat.cast_pow, Nat.cast_ofNat, ← pow_add] at hfirst
    obtain ⟨k, hk⟩ := two_pow_dvd_reach_of_abs_sub_le hlower ((not_le.mp hlt).le.trans hfirst)
    rw [hk, Nat.mul_comm, Nat.cast_mul, Nat.cast_pow, Nat.cast_ofNat] at hlt
    exact hlt (hgrid k)
  · -- the significand lies beyond the format, and so does `q`
    rw [Nat.min_eq_right (Nat.le_of_not_le hle)]
    have hscale : 2046 ≤ s := by
      by_contra hlt
      apply hle
      calc m * 2 ^ s ≤ 2 ^ 53 * 2 ^ s := Nat.mul_le_mul_right _ hm53
        _ = 2 ^ (53 + s) := (Nat.pow_add 2 53 s).symm
        _ ≤ beyond := (two_pow_le_beyond_iff _).mpr (by omega)
    have hpow : (2 : ℚ) ^ (52 + s) ≤ q := hlower.resolve_left (by omega)
    have hbeyond : (beyond : ℚ) ≤ q := by
      have hpow' : beyond ≤ 2 ^ (52 + s) := (beyond_le_two_pow_iff _).mpr (by omega)
      calc (beyond : ℚ) ≤ 2 ^ (52 + s) := by exact_mod_cast hpow'
        _ ≤ q := hpow
    have hx : (x.reach : ℚ) ≤ beyond := by exact_mod_cast reach_le_beyond x
    rw [abs_of_nonpos (sub_nonpos.mpr hbeyond), abs_of_nonpos (by linarith)]
    linarith

/-- What is nearer to the greater of two numbers is not below the middle of them. -/
theorem add_le_two_mul_of_abs_sub_le {a b : ℚ} (hlt : b < a) (h : |a - q| ≤ |b - q|) :
    a + b ≤ 2 * q := by
  have ha := le_abs_self (a - q)
  rcases abs_cases (b - q) with ⟨hb, -⟩ | ⟨hb, -⟩ <;> linarith

/-- What is nearer to the less of two numbers is not above the middle of them. -/
theorem two_mul_le_add_of_abs_sub_le {a b : ℚ} (hlt : b < a) (h : |b - q| ≤ |a - q|) :
    2 * q ≤ a + b := by
  have hb := neg_abs_le (b - q)
  rcases abs_cases (a - q) with ⟨ha, -⟩ | ⟨ha, -⟩ <;> linarith

/-- Rounding keeps the order. -/
theorem reach_nearest_mono (hq : 0 ≤ q) (h : q ≤ q') :
    (nearest negative q).reach ≤ (nearest negative q').reach := by
  by_contra hnot
  have hlt : ((nearest negative q').reach : ℚ) < (nearest negative q).reach := by
    exact_mod_cast Nat.lt_of_not_le hnot
  have hleft := abs_reach_nearest_sub_le negative hq (nearest negative q')
  have hright := abs_reach_nearest_sub_le negative (hq.trans h) (nearest negative q)
  -- `q` is not below the middle of the two, nor `q'` above it, so they are the same
  have hmiddle := add_le_two_mul_of_abs_sub_le hlt hleft
  have hmiddle' := two_mul_le_add_of_abs_sub_le hlt hright
  have heq : q = q' := by linarith
  exact hnot (heq ▸ Nat.le_refl _)

/-- Every number is the nearest to itself. -/
theorem nearest_reach {x : Binary64} (hx : x ≠ nan) : nearest x.isNegative x.reach = x := by
  have hpos : (0 : ℚ) ≤ x.reach := Nat.cast_nonneg _
  have hnear := abs_reach_nearest_sub_le x.isNegative hpos x
  rw [sub_self, abs_zero] at hnear
  have heq : ((nearest x.isNegative x.reach).reach : ℚ) = x.reach :=
    sub_eq_zero.mp (abs_nonpos_iff.mp hnear)
  refine eq_of_reach_eq (nearest_ne_nan _ hpos) hx (isNegative_nearest _ hpos) ?_
  exact_mod_cast heq

theorem nearest_quanta {x : Binary64} (hx : x.isFinite = true) :
    nearest x.isNegative x.quanta = x := by
  have hself := nearest_reach (ne_nan_of_isFinite hx)
  rwa [reach_of_isFinite hx] at hself

/-- Up to `2 ^ (53 + t)` quanta the numbers are at most `2 ^ t` quanta apart, and rounding is off by
at most half of that. -/
theorem abs_reach_nearest_sub_le_half (hq : 0 ≤ q) {t : ℕ} (ht : t ≤ 2045)
    (hupper : q < 2 ^ (53 + t)) :
    |((nearest negative q).reach : ℚ) - q| ≤ 2 ^ t / 2 := by
  obtain ⟨m, s, -, hlower, hm53, -, hhalf, -, -, hreach⟩ := exists_significand negative hq
  have hscale : s ≤ t := by
    rcases hlower with h0 | hpow
    · omega
    · have hlt : (2 : ℚ) ^ (52 + s) < 2 ^ (53 + t) := lt_of_le_of_lt hpow hupper
      have := (pow_lt_pow_iff_right₀ (by norm_num : (1 : ℚ) < 2)).mp hlt
      omega
  have hle : m * 2 ^ s ≤ beyond := by
    calc m * 2 ^ s ≤ 2 ^ 53 * 2 ^ s := Nat.mul_le_mul_right _ hm53
      _ = 2 ^ (53 + s) := (Nat.pow_add 2 53 s).symm
      _ ≤ beyond := (two_pow_le_beyond_iff _).mpr (by omega)
  rw [hreach, Nat.min_eq_left hle, Nat.cast_mul, Nat.cast_pow, Nat.cast_ofNat, abs_mul_two_pow_sub]
  calc |(m : ℚ) - q / 2 ^ s| * 2 ^ s ≤ 1 / 2 * 2 ^ s :=
        mul_le_mul_of_nonneg_right hhalf (by positivity)
    _ ≤ 1 / 2 * 2 ^ t := by
        have : (2 : ℚ) ^ s ≤ 2 ^ t := pow_le_pow_right₀ (by norm_num) hscale
        linarith
    _ = 2 ^ t / 2 := by ring

/-- The numbers that are rounded to one number have no gaps. -/
theorem nearest_eq_of_le_of_le {r : ℚ} (hq : 0 ≤ q) (h : q ≤ r) (h' : r ≤ q')
    (heq : nearest negative q = nearest negative q') : nearest negative r = nearest negative q := by
  have hr : 0 ≤ r := hq.trans h
  have hlower := reach_nearest_mono negative hq h
  have hupper := reach_nearest_mono negative hr h'
  rw [← heq] at hupper
  refine eq_of_reach_eq (nearest_ne_nan _ hr) (nearest_ne_nan _ hq) ?_ (by omega)
  rw [isNegative_nearest _ hr, isNegative_nearest _ hq]

theorem neg_nearest (q : ℚ) : (nearest negative q).neg = nearest (!negative) q := by
  have hneg (m s : ℕ) : (ofQuanta negative m s).neg = ofQuanta (!negative) m s := by
    unfold ofQuanta
    split <;> rfl
  unfold nearest ofRatio
  dsimp only
  split <;> exact hneg _ _

end

/-- Less than half a step away from a number that is not at the lower end of its scale, that number
is the nearest. -/
theorem nearest_eq_of_abs_sub_lt {negative : Bool} {m s : ℕ} {c : Canonical m s} (hm : 2 ^ 52 < m)
    {q : ℚ} (h : |(m * 2 ^ s : ℚ) - q| < 2 ^ s / 2) :
    nearest negative q = finite negative m s c := by
  have hpow : (0 : ℚ) < 2 ^ s := by positivity
  have hreach : ((finite negative m s c).reach : ℚ) = m * 2 ^ s := by
    unfold reach
    push_cast
    rfl
  have hstart : (2 : ℚ) ^ (52 + s) + 2 ^ s ≤ m * 2 ^ s := by
    have hm' : (2 : ℚ) ^ 52 + 1 ≤ m := by exact_mod_cast hm
    calc (2 : ℚ) ^ (52 + s) + 2 ^ s = (2 ^ 52 + 1) * 2 ^ s := by ring
      _ ≤ m * 2 ^ s := mul_le_mul_of_nonneg_right hm' hpow.le
  have habs := abs_lt.mp h
  have hq : 0 ≤ q := by
    have : (0 : ℚ) < 2 ^ (52 + s) := by positivity
    linarith
  set y := nearest negative q with hy
  have hnear := abs_reach_nearest_sub_le negative hq (finite negative m s c)
  rw [← hy, hreach] at hnear
  have habs' := abs_lt.mp (lt_of_le_of_lt hnear h)
  -- both lie on the grid of the scale, and less than a step apart
  have hdvd : 2 ^ s ∣ y.reach := by
    refine two_pow_dvd_reach ?_
    have hlt : (2 : ℚ) ^ (52 + s) < y.reach := by linarith
    exact_mod_cast hlt.le
  obtain ⟨k, hk⟩ := hdvd
  have hk' : (y.reach : ℚ) = k * 2 ^ s := by
    rw [hk, mul_comm]
    push_cast
    rfl
  have hlt : |((k : ℤ) - m : ℤ)| < 1 := by
    have hlt' : |(k : ℚ) - m| * 2 ^ s < 1 * 2 ^ s := by
      rw [← abs_of_pos hpow, ← abs_mul, abs_of_pos hpow, sub_mul, ← hk', one_mul, abs_lt]
      constructor <;> linarith
    have := lt_of_mul_lt_mul_right hlt' hpow.le
    exact_mod_cast this
  have heq : k = m := by
    have := Int.abs_lt_one_iff.mp hlt
    omega
  refine eq_of_reach_eq (nearest_ne_nan _ hq) (by simp) (isNegative_nearest _ hq) ?_
  rw [hk, heq]
  exact Nat.mul_comm _ _

/-- Every power of two in the format is a number of it. -/
theorem nearest_two_pow (negative : Bool) {t : ℕ} (ht : t ≤ 2045) :
    (nearest negative (2 ^ (52 + t))).reach = 2 ^ (52 + t) := by
  have hcanonical : Canonical (2 ^ 52) t := ⟨by decide, ht, .inl (by decide)⟩
  have hreach : (finite negative (2 ^ 52) t hcanonical).reach = 2 ^ (52 + t) :=
    (Nat.pow_add 2 52 t).symm
  have hself := nearest_reach (x := finite negative (2 ^ 52) t hcanonical) (by simp)
  rw [hreach, Nat.cast_pow, Nat.cast_ofNat] at hself
  rw [← hreach, ← hself]
  rfl

end Binary64

end Calculator
