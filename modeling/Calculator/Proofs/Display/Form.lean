import Calculator.Proofs.Display.Characters
import Calculator.Proofs.Numeral.Form

/-!
# The form of displayed numbers

Whatever finite number is displayed, and with however many places, its text is in positional
notation, without an exponent and without a zero too many at either end.  It begins with a minus
sign exactly if the number has one, even if only zeros follow, and the text of the negated number is
the same but for this sign (`display_positional`).
-/

namespace Calculator

/-- **Displayed numbers are in positional notation**, with at most the given number of places and
the sign of the number, also where that is a zero or rounded to zero. -/
theorem display_positional (s : Settings) {x : Binary64} (hx : x.isFinite = true) (p : ℕ) :
    ∃ text, display s p x = .ok text ∧ text ∈ positionalForm.matches' ∧ placesOf text ≤ p ∧
      (text.head? = some '-' ↔ x.isNegative = true) ∧
      display s p x.neg = .ok (toggleSign text) := by
  have hneg : x.neg.isFinite = true := by rw [Binary64.isFinite_neg, hx]
  refine ⟨(x.toDecimal p).toText, display_of_isFinite s hx p, Decimal.toText_mem_matches _, ?_, ?_,
    ?_⟩
  · exact Decimal.placesOf_toText_le _ (Binary64.neg_le_exponent_toDecimal x p)
  · rw [Decimal.head?_toText_eq_iff, Binary64.negative_toDecimal]
  · rw [display_of_isFinite s hneg, Binary64.toDecimal_neg hx, Decimal.toText_neg]

/-- A carry makes the whole part of -9.96 longer, and the least negative number is displayed as a
negative zero. -/
theorem display_positional_carry :
    (display .standard 1 (.finite true 0x13EB851EB851EC 1025 (by decide)) = .ok "-10".toList ∧
      "-10".toList ∈ positionalForm.matches' ∧
      display .standard 1 (.finite false 0x13EB851EB851EC 1025 (by decide)) = .ok "10".toList) ∧
    display .standard 8 (.finite true 1 0 (by decide)) = .ok "-0".toList ∧
      "-0".toList ∈ positionalForm.matches' ∧
      display .standard 8 (.finite false 1 0 (by decide)) = .ok "0".toList := by
  have hcarry : display .standard (1 : ℕ) (.finite true 0x13EB851EB851EC 1025 (by decide)) =
      .ok "-10".toList := by decide +kernel
  have hleast : display .standard (8 : ℕ) (.finite true 1 0 (by decide)) = .ok "-0".toList := by
    decide +kernel
  constructor
  · obtain ⟨text, htext, hform, -, -, hneg⟩ := display_positional .standard
      (x := .finite true 0x13EB851EB851EC 1025 (by decide)) rfl 1
    obtain rfl : "-10".toList = text := Except.ok.inj (hcarry.symm.trans htext)
    exact ⟨hcarry, hform, hneg⟩
  · obtain ⟨text, htext, hform, -, -, hneg⟩ := display_positional .standard
      (x := .finite true 1 0 (by decide)) rfl 8
    obtain rfl : "-0".toList = text := Except.ok.inj (hleast.symm.trans htext)
    exact ⟨hleast, hform, hneg⟩

end Calculator
