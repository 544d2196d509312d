import Calculator.Proofs.Binary64.Shortest
import Calculator.Proofs.Display.Characters

/-!
# What a displayed number denotes

The text of a number is itself the numeral of a decimal (`denoted?`), and that decimal has the sign
and the absolute value of the one that was written (`denoted?_toText`).  So what is known about the
decimal of a number holds of its text: it is the shortest that reads back, or the nearest of the
allowed places (`display_shortest_or_nearest`), and it grows with the number (`display_mono`).
-/

namespace Calculator

/-- The decimal that a text denotes: a sign and a numeral. -/
def denoted? (text : Text) : Option Decimal :=
  let (negative, body) := Numeral.splitSign text
  (Numeral.ofText? body).map fun n => ⟨negative, digitsValue n.digits, n.exponent - n.places⟩

namespace Decimal

variable {d d' : Decimal}

theorem denoted?_toText (d : Decimal) :
    ∃ d', denoted? d.toText = some d' ∧ d'.negative = d.negative ∧ d'.magnitude = d.magnitude := by
  have hnumeral := Numeral.ofText?_of_isNumberChar d.run_ne_nil d.isNumberChar_of_mem_run
  rw [d.isMalformed_run, if_neg (by decide)] at hnumeral
  unfold denoted?
  rw [splitSign_toText]
  dsimp only
  rw [hnumeral]
  refine ⟨_, rfl, rfl, ?_⟩
  unfold magnitude
  dsimp only
  rw [zero_sub, ← Decimal.magnitude, ← value_run]

section

variable (hsign : d.negative = d'.negative) (h : d.magnitude = d'.magnitude)

include hsign h

theorem value_congr : d.value = d'.value := by
  rw [value, value, hsign, h]

theorem toBinary64_congr : d.toBinary64 = d'.toBinary64 := by
  rw [toBinary64_eq_nearest, toBinary64_eq_nearest, hsign, h]

end

theorem hasPlaces_congr {p : ℕ} (h : d.magnitude = d'.magnitude) :
    d.HasPlaces p ↔ d'.HasPlaces p := by
  rw [HasPlaces, HasPlaces, h]

end Decimal

/-- A finite number is displayed as the text of its decimal, and that denotes the same. -/
theorem exists_display (s : Settings) {x : Binary64} (hx : x.isFinite = true) (p : ℕ) :
    ∃ text d, display s p x = .ok text ∧ denoted? text = some d ∧
      d.negative = (x.toDecimal p).negative ∧ d.magnitude = (x.toDecimal p).magnitude ∧
      Binary64.ofText? text = some d.toBinary64 := by
  obtain ⟨d, hd, hsign, hmagnitude⟩ := (x.toDecimal p).denoted?_toText
  refine ⟨_, d, display_of_isFinite s hx p, hd, hsign, hmagnitude, ?_⟩
  rw [Decimal.ofText?_toText, Decimal.toBinary64_congr hsign hmagnitude]

/-- **The shortest decimal, or else the nearest**: if any decimal of at most `p` places reads back
as the number, the displayed one does, and none that does has fewer significant digits.  Otherwise
the displayed one is the nearest multiple of the last place, an even one if two are. -/
theorem display_shortest_or_nearest (s : Settings) {x : Binary64} (hx : x.isFinite = true) (p : ℕ) :
    ∃ text d, display s p x = .ok text ∧ denoted? text = some d ∧ d.HasPlaces p ∧
      d.negative = x.isNegative ∧
      ((∃ d' : Decimal, d'.HasPlaces p ∧ d'.toBinary64 = x) →
        Binary64.ofText? text = some x ∧ d.toBinary64 = x ∧
          ∀ d' : Decimal, d'.toBinary64 = x → d.significantDigits ≤ d'.significantDigits) ∧
      ((¬∃ d' : Decimal, d'.HasPlaces p ∧ d'.toBinary64 = x) →
        IsNearestMultiple (10 ^ (-(p : ℤ))) x.value d.value) := by
  obtain ⟨text, d, htext, hd, hsign, hmagnitude, hread⟩ := exists_display s hx p
  have hplaces : (x.toDecimal p).HasPlaces p := Binary64.hasPlaces_toDecimal x p
  refine ⟨text, d, htext, hd, (Decimal.hasPlaces_congr hmagnitude).mpr hplaces, ?_, ?_, ?_⟩
  · rw [hsign, Binary64.negative_toDecimal]
  · rintro ⟨d₀, hplaces₀, hback₀⟩
    have hback : d.toBinary64 = x := by
      rw [Decimal.toBinary64_congr hsign hmagnitude]
      exact Binary64.toBinary64_toDecimal hx hplaces₀ hback₀
    refine ⟨by rw [hread, hback], hback, ?_⟩
    intro d' hback'
    rw [Decimal.significantDigits_congr hmagnitude]
    exact Binary64.significantDigits_toDecimal_le hx hplaces₀ hback₀ hback'
  · intro hnone
    rw [Decimal.value_congr hsign hmagnitude]
    apply Binary64.isNearestMultiple_toDecimal
    intro hback
    exact hnone ⟨_, hplaces, hback⟩

/-- The sum of a tenth and two tenths needs 17 digits, and with as many places it gets them.  Two
and a half has no decimal without places, and of its two neighbours it gets the even one. -/
theorem display_shortest_or_nearest_tenths :
    (display .standard 17 (.finite false 0x13333333333334 1020 (by decide)) =
        .ok "0.30000000000000004".toList ∧
      ∀ d' : Decimal, d'.toBinary64 = .finite false 0x13333333333334 1020 (by decide) →
        17 ≤ d'.significantDigits) ∧
    display .standard 0 (.finite false 0x14000000000000 1023 (by decide)) = .ok "2".toList ∧
      IsNearestMultiple 1 (Binary64.value (.finite false 0x14000000000000 1023 (by decide))) 2 := by
  have hsum : display .standard (17 : ℕ) (.finite false 0x13333333333334 1020 (by decide)) =
      .ok "0.30000000000000004".toList := by decide +kernel
  have hhalf : display .standard (0 : ℕ) (.finite false 0x14000000000000 1023 (by decide)) =
      .ok "2".toList := by decide +kernel
  refine ⟨⟨hsum, ?_⟩, hhalf, ?_⟩
  · obtain ⟨text, d, htext, hd, hplaces, -, hshortest, -⟩ := display_shortest_or_nearest .standard
      (x := .finite false 0x13333333333334 1020 (by decide)) rfl 17
    obtain rfl : "0.30000000000000004".toList = text := Except.ok.inj (hsum.symm.trans htext)
    have hd' : denoted? "0.30000000000000004".toList = some ⟨false, 30000000000000004, -17⟩ := by
      decide +kernel
    obtain rfl := Option.some.inj (hd'.symm.trans hd)
    obtain ⟨-, -, hfewest⟩ := hshortest ⟨_, hplaces, by decide +kernel⟩
    have hdigits : Decimal.significantDigits ⟨false, 30000000000000004, -17⟩ = 17 := by
      decide +kernel
    rw [hdigits] at hfewest
    exact hfewest
  · obtain ⟨text, d, htext, hd, -, -, hshortest, hnearest⟩ := display_shortest_or_nearest .standard
      (x := .finite false 0x14000000000000 1023 (by decide)) rfl 0
    obtain rfl : "2".toList = text := Except.ok.inj (hhalf.symm.trans htext)
    have hd' : denoted? "2".toList = some ⟨false, 2, 0⟩ := by decide +kernel
    obtain rfl := Option.some.inj (hd'.symm.trans hd)
    have hnone := hnearest fun hplaces => absurd (hshortest hplaces).2.1 (by decide +kernel)
    simpa [Decimal.value, Decimal.magnitude] using hnone

/-- **A greater number is not displayed as a lesser one.** -/
theorem display_mono (s : Settings) {x y : Binary64} (hx : x.isFinite = true)
    (hy : y.isFinite = true) (hle : x.value ≤ y.value) (p : ℕ) :
    ∃ text text' d d', display s p x = .ok text ∧ display s p y = .ok text' ∧
      denoted? text = some d ∧ denoted? text' = some d' ∧ d.value ≤ d'.value := by
  obtain ⟨text, d, htext, hd, hsign, hmagnitude, -⟩ := exists_display s hx p
  obtain ⟨text', d', htext', hd', hsign', hmagnitude', -⟩ := exists_display s hy p
  refine ⟨text, text', d, d', htext, htext', hd, hd', ?_⟩
  rw [Decimal.value_congr hsign hmagnitude, Decimal.value_congr hsign' hmagnitude']
  exact Binary64.value_toDecimal_mono hx hy p hle

/-- A quarter is cut to the even one of two decimals, three tenths are not cut at all. -/
theorem display_mono_quarter :
    display .standard 1 (.finite false 0x10000000000000 1020 (by decide)) = .ok "0.2".toList ∧
      display .standard 1 (.finite false 0x13333333333333 1020 (by decide)) = .ok "0.3".toList ∧
      denoted? "0.2".toList = some ⟨false, 2, -1⟩ ∧ denoted? "0.3".toList = some ⟨false, 3, -1⟩ ∧
      Decimal.value ⟨false, 2, -1⟩ ≤ Decimal.value ⟨false, 3, -1⟩ := by
  have hle : Binary64.value (.finite false 0x10000000000000 1020 (by decide)) ≤
      Binary64.value (.finite false 0x13333333333333 1020 (by decide)) :=
    Binary64.magnitude_le_iff.mpr (by decide +kernel)
  obtain ⟨text, text', d, d', htext, htext', hd, hd', hvalue⟩ :=
    display_mono .standard rfl rfl hle 1
  have hquarter : display .standard (1 : ℕ) (.finite false 0x10000000000000 1020 (by decide)) =
      .ok "0.2".toList := by decide +kernel
  have htenths : display .standard (1 : ℕ) (.finite false 0x13333333333333 1020 (by decide)) =
      .ok "0.3".toList := by decide +kernel
  have hfirst : denoted? "0.2".toList = some ⟨false, 2, -1⟩ := by decide +kernel
  have hsecond : denoted? "0.3".toList = some ⟨false, 3, -1⟩ := by decide +kernel
  obtain rfl : "0.2".toList = text := Except.ok.inj (hquarter.symm.trans htext)
  obtain rfl : "0.3".toList = text' := Except.ok.inj (htenths.symm.trans htext')
  obtain rfl := Option.some.inj (hfirst.symm.trans hd)
  obtain rfl := Option.some.inj (hsecond.symm.trans hd')
  exact ⟨hquarter, htenths, hfirst, hsecond, hvalue⟩

end Calculator
