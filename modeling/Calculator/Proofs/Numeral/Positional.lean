import Calculator.Binary64.Positional
import Calculator.Proofs.Binary64.Grid
import Calculator.Proofs.Numeral.Literal
import Mathlib.Data.List.DropRight
import Mathlib.Tactic.IntervalCases

/-!
# Reading positional notation

The text of a decimal is a sign and a run of digits with at most one point (`Decimal.toText_eq`,
`Decimal.isNumberChar_of_mem_run`).  The run denotes the absolute value of the decimal, so the text
reads back as the decimal does (`Decimal.ofText?_toText`), and it depends on nothing but the sign
and the absolute value (`Decimal.toText_congr`).

The fraction of a decimal of `n` places are its last `n` digits, leading zeros included
(`lastDigits`), and a run denotes the same with and without zeros at the end of its fraction.
-/

namespace Calculator

/-! ### Digits in writing -/

theorem decimalDigit?_digitChar {d : ℕ} (hd : d < 10) : decimalDigit? d.digitChar = some d := by
  interval_cases d <;> rfl

theorem digitsValue_concat (digits : List ℕ) (d : ℕ) :
    digitsValue (digits ++ [d]) = 10 * digitsValue digits + d := by
  rw [digitsValue, List.foldl_append]
  rfl

theorem digitsOf_digitChar {d : ℕ} (hd : d < 10) : digitsOf [d.digitChar] = [d] := by
  simp [digitsOf, decimalDigit?_digitChar hd]

theorem digitsValue_digitsOf_concat (s : Text) {d : ℕ} (hd : d < 10) :
    digitsValue (digitsOf (s ++ [d.digitChar])) = 10 * digitsValue (digitsOf s) + d := by
  rw [digitsOf_append, digitsOf_digitChar hd, digitsValue_concat]

/-- The last `n` decimal digits, leading zeros included. -/
def lastDigits : (n m : ℕ) → Text
  | 0, _ => []
  | n + 1, m => lastDigits n (m / 10) ++ [(m % 10).digitChar]

theorem length_lastDigits (n m : ℕ) : (lastDigits n m).length = n := by
  induction n generalizing m with
  | zero => rfl
  | succ n ih => rw [lastDigits, List.length_append, ih, List.length_singleton]

theorem lastDigits_zero (n : ℕ) : lastDigits n 0 = List.replicate n '0' := by
  induction n with
  | zero => rfl
  | succ n ih =>
    rw [lastDigits, Nat.zero_div, ih, List.replicate_succ']
    rfl

theorem lastDigits_mod (n m : ℕ) : lastDigits n (m % 10 ^ n) = lastDigits n m := by
  induction n generalizing m with
  | zero => rfl
  | succ n ih =>
    have hquotient : m % 10 ^ (n + 1) / 10 = m / 10 % 10 ^ n := by
      rw [pow_succ', Nat.mod_mul_right_div_self]
    have hlast : m % 10 ^ (n + 1) % 10 = m % 10 := Nat.mod_mod_of_dvd m (Dvd.intro_left _ rfl)
    rw [lastDigits, hquotient, hlast, ih, lastDigits]

/-- A shift by one place. -/
theorem lastDigits_mul_ten (n m : ℕ) : lastDigits (n + 1) (m * 10) = lastDigits n m ++ ['0'] := by
  rw [lastDigits, Nat.mul_div_cancel m (by decide), Nat.mul_mod_left]
  rfl

theorem Text.ofNat_of_lt {n : ℕ} (hn : n < 10) : ofNat n = [n.digitChar] :=
  Nat.toDigits_of_lt_base hn

theorem Text.ofNat_of_le {n : ℕ} (hn : 10 ≤ n) :
    ofNat n = ofNat (n / 10) ++ [(n % 10).digitChar] := by
  unfold ofNat
  rw [Nat.toDigits_eq_if (by decide), if_neg (by omega)]

/-- Padding with zeros gives the last digits. -/
theorem replicate_append_ofNat {n m : ℕ} (hn : 0 < n) (hm : m < 10 ^ n) :
    List.replicate (n - (Text.ofNat m).length) '0' ++ Text.ofNat m = lastDigits n m := by
  -- the last digit comes off the end on both sides
  induction n generalizing m with
  | zero => exact absurd hn (Nat.lt_irrefl 0)
  | succ n ih =>
    rcases Nat.eq_zero_or_pos n with rfl | hpos
    · have hlt : m < 10 := by simpa using hm
      rw [Text.ofNat_of_lt hlt, lastDigits, Nat.mod_eq_of_lt hlt]
      rfl
    · rw [lastDigits]
      rcases Nat.lt_or_ge m 10 with hlt | hge
      · rw [Text.ofNat_of_lt hlt, Nat.div_eq_of_lt hlt, Nat.mod_eq_of_lt hlt, lastDigits_zero]
        rfl
      · have hdiv : m / 10 < 10 ^ n := by
          rw [Nat.div_lt_iff_lt_mul (by decide), ← pow_succ]
          exact hm
        rw [Text.ofNat_of_le hge, List.length_append, List.length_singleton, Nat.add_sub_add_right,
          ← List.append_assoc, ih hpos hdiv]

/-! ### What digits in writing denote -/

theorem length_digitsOf {s : Text} (h : ∀ c ∈ s, isDecimalDigit c = true) :
    (digitsOf s).length = s.length := by
  induction s with
  | nil => rfl
  | cons c rest ih =>
    obtain ⟨hc, hrest⟩ := List.forall_mem_cons.mp h
    obtain ⟨d, hd⟩ := Option.isSome_iff_exists.mp hc
    have hcons : digitsOf (c :: rest) = d :: digitsOf rest := List.filterMap_cons_some hd
    rw [hcons, List.length_cons, List.length_cons, ih hrest]

theorem digitsValue_digitsOf_ofNat (n : ℕ) : digitsValue (digitsOf (Text.ofNat n)) = n := by
  induction n using Nat.strong_induction_on with
  | _ n ih =>
  rcases Nat.lt_or_ge n 10 with hlt | hge
  · rw [Text.ofNat_of_lt hlt, digitsOf_digitChar hlt]
    exact Nat.zero_add n
  · rw [Text.ofNat_of_le hge, digitsValue_digitsOf_concat _ (Nat.mod_lt n (by decide)),
      ih (n / 10) (by omega)]
    omega

theorem digitsValue_digitsOf_lastDigits (s : Text) (n m : ℕ) :
    digitsValue (digitsOf (s ++ lastDigits n m)) =
      digitsValue (digitsOf s) * 10 ^ n + m % 10 ^ n := by
  induction n generalizing m with
  | zero => simp [lastDigits, Nat.mod_one]
  | succ n ih =>
    rw [lastDigits, ← List.append_assoc, digitsValue_digitsOf_concat _ (Nat.mod_lt m (by decide)),
      ih, pow_succ', Nat.mod_mul]
    ring

theorem digitsValue_digitsOf_zeros (s : Text) (n : ℕ) :
    digitsValue (digitsOf (s ++ List.replicate n '0')) = digitsValue (digitsOf s) * 10 ^ n := by
  rw [← lastDigits_zero, digitsValue_digitsOf_lastDigits, Nat.zero_mod, Nat.add_zero]

theorem isDecimalDigit_digitChar {d : ℕ} (hd : d < 10) : isDecimalDigit d.digitChar = true := by
  rw [isDecimalDigit, decimalDigit?_digitChar hd]
  rfl

theorem isDecimalDigit_of_mem_lastDigits {n m : ℕ} :
    ∀ c ∈ lastDigits n m, isDecimalDigit c = true := by
  induction n generalizing m with
  | zero => simp [lastDigits]
  | succ n ih =>
    intro c hc
    rw [lastDigits] at hc
    rcases List.mem_append.mp hc with hc | hc
    · exact ih c hc
    · rw [List.mem_singleton.mp hc]
      exact isDecimalDigit_digitChar (Nat.mod_lt m (by decide))

theorem isDecimalDigit_of_mem_ofNat {n : ℕ} : ∀ c ∈ Text.ofNat n, isDecimalDigit c = true := by
  have hdigits : Text.ofNat n = lastDigits (Text.ofNat n).length n := by
    have hpos : 0 < (Text.ofNat n).length := Nat.length_toDigits_pos
    have hlt : n < 10 ^ (Text.ofNat n).length :=
      (Nat.length_toDigits_le_iff (by decide) hpos).mp (Nat.le_refl _)
    have hpad := replicate_append_ofNat hpos hlt
    rwa [Nat.sub_self] at hpad
  rw [hdigits]
  exact isDecimalDigit_of_mem_lastDigits

/-- What is dropped at the end of a list is one element, some number of times. -/
theorem exists_rdropWhile_append {α : Type} [DecidableEq α] (x : α) (l : List α) :
    ∃ n, l = l.rdropWhile (· = x) ++ List.replicate n x := by
  have hdropped : l.rtakeWhile (· = x) = List.replicate (l.rtakeWhile (· = x)).length x := by
    rw [List.eq_replicate_iff]
    exact ⟨rfl, fun y hy => of_decide_eq_true (List.mem_rtakeWhile_imp (p := (· = x)) hy)⟩
  refine ⟨(l.rtakeWhile (· = x)).length, ?_⟩
  rw [← hdropped, List.rdropWhile_append_rtakeWhile]

namespace Text

theorem trimEnd_concat {p : Char → Bool} {c : Char} (hc : p c = true) (s : Text) :
    trimEnd p (s ++ [c]) = trimEnd p s := by
  simp [trimEnd, hc]

theorem exists_trimEnd_append (c : Char) (s : Text) :
    ∃ n, s = trimEnd (· = c) s ++ List.replicate n c :=
  exists_rdropWhile_append c s

end Text

namespace Decimal

/-! ### The text of a decimal -/

/-- The text without the sign. -/
def run (d : Decimal) : Text :=
  let fraction := d.fraction.trimEnd (· = '0')
  Text.ofNat d.whole ++ (if fraction.isEmpty then [] else '.' :: fraction)

theorem toText_eq (d : Decimal) : d.toText = (if d.negative then ['-'] else []) ++ d.run := by
  unfold toText run
  dsimp only
  rw [List.append_assoc]

section

variable {d : Decimal} {n : ℕ}

theorem whole_of_nonneg (h : d.exponent = n) : d.whole = d.digits * 10 ^ n := by
  simp only [whole, Nat.pow_eq, h, Int.toNat_natCast]
  exact if_pos (Int.natCast_nonneg n)

theorem fraction_of_nonneg (h : d.exponent = n) : d.fraction = [] := by
  unfold fraction
  rw [h]
  exact if_pos (Int.natCast_nonneg n)

theorem whole_of_nonpos (h : d.exponent = -n) : d.whole = d.digits / 10 ^ n := by
  simp only [whole, Nat.pow_eq, h, neg_neg, Int.toNat_natCast]
  split_ifs with hn
  · obtain rfl : n = 0 := by omega
    simp
  · rfl

theorem fraction_of_nonpos (h : d.exponent = -n) : d.fraction = lastDigits n d.digits := by
  simp only [fraction, Nat.pow_eq, h, neg_neg, Int.toNat_natCast]
  split_ifs with hn
  · obtain rfl : n = 0 := by omega
    rfl
  · rw [replicate_append_ofNat (by omega) (Nat.mod_lt _ (by positivity)), lastDigits_mod]

end

theorem isDecimalDigit_of_mem_fraction (d : Decimal) :
    ∀ c ∈ d.fraction, isDecimalDigit c = true := by
  rcases Int.eq_nat_or_neg d.exponent with ⟨n, hn | hn⟩
  · rw [fraction_of_nonneg hn]
    simp
  · rw [fraction_of_nonpos hn]
    exact isDecimalDigit_of_mem_lastDigits

/-! ### One text for one value -/

/-- A multiple on one grid is ten times that multiple on the next finer one. -/
theorem run_mul_ten (negative : Bool) (m : ℕ) (e : ℤ) :
    run ⟨negative, m * 10, e - 1⟩ = run ⟨negative, m, e⟩ := by
  rcases le_or_gt e 0 with he | he
  · obtain ⟨n, rfl⟩ : ∃ n : ℕ, e = -n := ⟨(-e).toNat, by omega⟩
    have hfiner : (⟨negative, m * 10, -n - 1⟩ : Decimal).exponent = -((n + 1 : ℕ) : ℤ) := by
      push_cast
      ring
    have hsame : (⟨negative, m, -n⟩ : Decimal).exponent = -n := rfl
    unfold run
    rw [whole_of_nonpos hfiner, fraction_of_nonpos hfiner, whole_of_nonpos hsame,
      fraction_of_nonpos hsame]
    dsimp only
    rw [lastDigits_mul_ten, Text.trimEnd_concat (by simp), pow_succ,
      Nat.mul_div_mul_right m _ (by decide)]
  · obtain ⟨n, rfl⟩ : ∃ n : ℕ, e = (n + 1 : ℕ) := ⟨(e - 1).toNat, by omega⟩
    have hfiner : (⟨negative, m * 10, (n + 1 : ℕ) - 1⟩ : Decimal).exponent = n := by
      push_cast
      ring
    have hsame : (⟨negative, m, (n + 1 : ℕ)⟩ : Decimal).exponent = (n + 1 : ℕ) := rfl
    unfold run
    rw [whole_of_nonneg hfiner, fraction_of_nonneg hfiner, whole_of_nonneg hsame,
      fraction_of_nonneg hsame]
    dsimp only
    rw [pow_succ', Nat.mul_assoc]

theorem run_mul_ten_pow (negative : Bool) (m : ℕ) (e : ℤ) (i : ℕ) :
    run ⟨negative, m * 10 ^ i, e - i⟩ = run ⟨negative, m, e⟩ := by
  induction i with
  | zero => simp
  | succ i ih =>
    have hexponent : e - ((i + 1 : ℕ) : ℤ) = e - i - 1 := by
      push_cast
      ring
    rw [hexponent, pow_succ, ← Nat.mul_assoc, run_mul_ten, ih]

theorem run_congr_of_le {d d' : Decimal} (h : d.magnitude = d'.magnitude)
    (hle : d.exponent ≤ d'.exponent) : d.run = d'.run := by
  obtain ⟨negative, m, e⟩ := d
  obtain ⟨negative', m', e'⟩ := d'
  obtain ⟨i, rfl⟩ : ∃ i : ℕ, e = e' - i := ⟨(e' - e).toNat, by dsimp only at hle; omega⟩
  have hm : m = m' * 10 ^ i := by
    have h : (m : ℚ) * 10 ^ (e' - i : ℤ) = m' * 10 ^ e' := h
    have hten : (10 : ℚ) ^ e' = 10 ^ i * 10 ^ (e' - i : ℤ) := by
      rw [← zpow_natCast, ← zpow_add₀ (by norm_num), add_sub_cancel]
    rw [hten, ← mul_assoc] at h
    have := mul_right_cancel₀ (by positivity) h
    exact_mod_cast this
  rw [hm]
  exact run_mul_ten_pow negative m' e' i

/-- **Decimals with one sign and one absolute value have one text.** -/
theorem toText_congr {d d' : Decimal} (hsign : d.negative = d'.negative)
    (h : d.magnitude = d'.magnitude) : d.toText = d'.toText := by
  have hrun : d.run = d'.run := by
    -- the finer of the two grids holds both
    rcases le_total d.exponent d'.exponent with hle | hle
    · exact run_congr_of_le h hle
    · exact (run_congr_of_le h.symm hle).symm
  rw [toText_eq, toText_eq, hsign, hrun]

/-! ### What the text denotes -/

/-- The fraction as it is written. -/
def shownFraction (d : Decimal) : Text := d.fraction.trimEnd (· = '0')

theorem exists_fraction_eq (d : Decimal) :
    ∃ n, d.fraction = d.shownFraction ++ List.replicate n '0' :=
  Text.exists_trimEnd_append '0' d.fraction

theorem isDecimalDigit_of_mem_shownFraction (d : Decimal) :
    ∀ c ∈ d.shownFraction, isDecimalDigit c = true := by
  intro c hc
  obtain ⟨n, hn⟩ := d.exists_fraction_eq
  refine d.isDecimalDigit_of_mem_fraction c ?_
  rw [hn]
  exact List.mem_append_left _ hc

theorem run_of_eq_nil {d : Decimal} (h : d.shownFraction = []) : d.run = Text.ofNat d.whole := by
  show Text.ofNat d.whole ++ (if d.shownFraction.isEmpty then [] else '.' :: d.shownFraction) = _
  rw [h, List.isEmpty_nil, if_pos rfl, List.append_nil]

theorem run_of_ne_nil {d : Decimal} (h : d.shownFraction ≠ []) :
    d.run = Text.ofNat d.whole ++ '.' :: d.shownFraction := by
  show Text.ofNat d.whole ++ (if d.shownFraction.isEmpty then [] else '.' :: d.shownFraction) = _
  rw [if_neg (by simpa using h)]

theorem ofNat_ne_nil (n : ℕ) : Text.ofNat n ≠ [] := Nat.toDigits_ne_nil

theorem notMem_point {s : Text} (h : ∀ c ∈ s, isDecimalDigit c = true) : '.' ∉ s := by
  intro hmem
  exact absurd (h '.' hmem) (by decide)

section

variable (d : Decimal)

theorem run_ne_nil : d.run ≠ [] := by
  show Text.ofNat d.whole ++ _ ≠ []
  exact List.append_ne_nil_of_left_ne_nil (ofNat_ne_nil d.whole) _

theorem isNumberChar_of_mem_run : ∀ c ∈ d.run, isNumberChar c = true := by
  have hnumber {c : Char} (hc : isDecimalDigit c = true) : isNumberChar c = true := by
    rw [isNumberChar, hc, Bool.true_or]
  intro c hc
  by_cases h : d.shownFraction = []
  · rw [run_of_eq_nil h] at hc
    exact hnumber (isDecimalDigit_of_mem_ofNat c hc)
  · rw [run_of_ne_nil h, List.mem_append, List.mem_cons] at hc
    rcases hc with hc | rfl | hc
    · exact hnumber (isDecimalDigit_of_mem_ofNat c hc)
    · decide
    · exact hnumber (d.isDecimalDigit_of_mem_shownFraction c hc)

theorem isMalformed_run : isMalformed d.run = false := by
  have hwhole : '.' ∉ Text.ofNat d.whole := notMem_point isDecimalDigit_of_mem_ofNat
  by_cases h : d.shownFraction = []
  · have hmem := d.isNumberChar_of_mem_run
    rw [run_of_eq_nil h] at hmem ⊢
    exact isMalformed_of_notMem (ofNat_ne_nil d.whole) hmem hwhole
  · have hdigits : (digitsOf (Text.ofNat d.whole)).isEmpty = false := by
      have hlength := length_digitsOf (isDecimalDigit_of_mem_ofNat (n := d.whole))
      have hpos := List.length_pos_iff.mpr (ofNat_ne_nil d.whole)
      rw [List.isEmpty_eq_false_iff, ← List.length_pos_iff, hlength]
      exact hpos
    rw [run_of_ne_nil h, isMalformed_append_of_notMem hwhole
      (notMem_point d.isDecimalDigit_of_mem_shownFraction), hdigits, Bool.false_and]

theorem digitsOf_run : digitsOf d.run = digitsOf (Text.ofNat d.whole ++ d.shownFraction) := by
  by_cases h : d.shownFraction = []
  · rw [run_of_eq_nil h, h, List.append_nil]
  · rw [run_of_ne_nil h, digitsOf_append, digitsOf_point, digitsOf_append]

theorem placesOf_run : placesOf d.run = d.shownFraction.length := by
  have hwhole : '.' ∉ Text.ofNat d.whole := notMem_point isDecimalDigit_of_mem_ofNat
  by_cases h : d.shownFraction = []
  · rw [run_of_eq_nil h, h, placesOf_of_notMem hwhole]
    rfl
  · rw [run_of_ne_nil h, placesOf_append hwhole,
      length_digitsOf d.isDecimalDigit_of_mem_shownFraction]

/-- The run denotes the absolute value. -/
theorem value_run :
    (digitsValue (digitsOf d.run) : ℚ) * 10 ^ (-(placesOf d.run : ℤ)) = d.magnitude := by
  rw [digitsOf_run, placesOf_run]
  unfold magnitude
  obtain ⟨i, hi⟩ := d.exists_fraction_eq
  rcases Int.eq_nat_or_neg d.exponent with ⟨n, hn | hn⟩
  · -- there is no fraction at all
    have hfraction := fraction_of_nonneg hn
    rw [hi, List.append_eq_nil_iff] at hfraction
    rw [hfraction.1, List.append_nil, digitsValue_digitsOf_ofNat, whole_of_nonneg hn, hn]
    push_cast
    simp
  · -- the zeros that are not written are put back
    have hfraction := fraction_of_nonpos hn
    have hlength : d.shownFraction.length + i = n := by
      rw [← length_lastDigits n d.digits, ← hfraction, hi, List.length_append,
        List.length_replicate]
    have hdigits : digitsValue (digitsOf (Text.ofNat d.whole ++ d.shownFraction)) * 10 ^ i =
        d.digits := by
      rw [← digitsValue_digitsOf_zeros, List.append_assoc, ← hi, hfraction,
        digitsValue_digitsOf_lastDigits, digitsValue_digitsOf_ofNat, whole_of_nonpos hn]
      exact Nat.div_add_mod' d.digits (10 ^ n)
    rw [← hdigits, hn, ← hlength]
    push_cast
    rw [neg_add, zpow_add₀ (by norm_num), zpow_neg _ (i : ℤ), zpow_natCast]
    field_simp

theorem ofDecimal_run (negative : Bool) :
    Binary64.ofDecimal negative (digitsValue (digitsOf d.run)) (-(placesOf d.run : ℤ)) =
      Binary64.ofDecimal negative d.digits d.exponent := by
  rw [Binary64.ofDecimal_eq_nearest, Binary64.ofDecimal_eq_nearest]
  congr 1
  have hvalue := d.value_run
  unfold magnitude at hvalue
  unfold Binary64.gridStep
  rw [← mul_assoc, hvalue, mul_assoc]

theorem mem_toText : ∀ c ∈ d.toText, c = '-' ∨ isNumberChar c = true := by
  intro c hc
  rw [toText_eq, List.mem_append] at hc
  rcases hc with hc | hc
  · split at hc
    · exact .inl (List.mem_singleton.mp hc)
    · exact absurd hc List.not_mem_nil
  · exact .inr (d.isNumberChar_of_mem_run c hc)

theorem splitSign_toText : Numeral.splitSign d.toText = (d.negative, d.run) := by
  rw [toText_eq]
  cases d.negative with
  | true => rfl
  | false => exact Numeral.splitSign_of_isNumberChar d.isNumberChar_of_mem_run

/-- **The text of a decimal reads back as the decimal**, its sign included. -/
theorem ofText?_toText : Binary64.ofText? d.toText = some d.toBinary64 := by
  have htrim : d.toText.trim isNumberPadding = d.toText := by
    refine Text.trim_eq_self fun c hc => ?_
    rcases d.mem_toText c hc with rfl | hnumber
    · decide
    · rw [isNumberPadding, isBlank_of_isNumberChar hnumber, Bool.false_and]
  have hname := Binary64.named?_of_isNumberChar d.run_ne_nil d.isNumberChar_of_mem_run d.negative
  have hnumeral := Numeral.ofText?_of_isNumberChar d.run_ne_nil d.isNumberChar_of_mem_run
  rw [d.isMalformed_run, if_neg (by decide)] at hnumeral
  unfold Binary64.ofText?
  rw [htrim, splitSign_toText]
  dsimp only
  rw [hname, hnumeral, Option.map_some, Numeral.value_eq_ofDecimal, ofDecimal_run]
  rfl

end

end Decimal

end Calculator
