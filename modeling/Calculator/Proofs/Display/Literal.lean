import Calculator.Proofs.Binary64.Separation
import Calculator.Proofs.Display.Typed
import Calculator.Proofs.Numeral.Canonical

/-!
# Literals and what is displayed for them

A literal is an expression by itself, and its value is the number nearest to the decimal that it
denotes.  If that has at most 15 significant digits and 8 decimal places, it is the decimal that
stands for this number as well, and what is displayed is the literal itself, in its canonical
spelling (`displayResult_literal`).
-/

namespace Calculator

/-- A literal that is not malformed has a value. -/
theorem outcome_evaluate_literal {s : Settings} (hs : s.glyphs = Settings.standard.glyphs)
    {run : Text} (h : ∀ c ∈ run, isNumberChar c = true) (hrun : isMalformed run = false) :
    (evaluate s run).outcome = .ok (decimalOf run).toBinary64 := by
  have hne : run ≠ [] := by
    rintro rfl
    exact absurd hrun (by decide)
  let expression : Derivation .unary := .literal ⟨run, hne, h⟩
  have hliterals : ∀ literal ∈ expression.literals, isMalformed literal = false := by
    intro literal hliteral
    rw [List.mem_singleton.mp hliteral]
    exact hrun
  exact (expression.outcome_evaluate_spelling hs).trans (Derivation.outcome_eq_value hliterals)

/-- **A literal of few digits is displayed as it was written**, in its canonical spelling. -/
theorem displayResult_literal {run : Text} (h : ∀ c ∈ run, isNumberChar c = true)
    (hrun : isMalformed run = false)
    (hvalue : digitsValue (digitsOf run) < 10 ^ (308 + placesOf run))
    (hsignificant : (significantDigitsOf run).length ≤ 15)
    (hfraction : (shownFractionDigits run).length ≤ 8) :
    ∃ x, (evaluate .standard run).outcome = .ok x ∧
      displayResult .standard x = .ok (canonicalText run) := by
  refine ⟨(decimalOf run).toBinary64, outcome_evaluate_literal rfl h hrun, ?_⟩
  have hfinite : (decimalOf run).toBinary64.isFinite = true :=
    Binary64.isFinite_toBinary64 (magnitude_decimalOf_lt run hvalue).le
  have hdigits : (decimalOf run).significantDigits ≤ 15 := by
    rw [significantDigits_decimalOf]
    exact hsignificant
  have hpow : 10 ^ 15 < 2 ^ 52 := by decide
  have hpow' : 10 ^ 8 < 2 ^ (26 + 1) := by decide
  have hmagnitude := Binary64.magnitude_toDecimal_of_significantDigits_le hpow hpow' (by decide)
    hdigits (hasPlaces_decimalOf run hfraction) hfinite
  have hsign : ((decimalOf run).toBinary64.toDecimal 8).negative = false := by
    have hunit : 0 ≤ (decimalOf run).magnitude * Binary64.quantaPerUnit :=
      mul_nonneg (decimalOf run).magnitude_nonneg Binary64.cast_quantaPerUnit_pos.le
    rw [Binary64.negative_toDecimal, Decimal.toBinary64_eq_nearest]
    exact Binary64.isNegative_nearest _ hunit
  rw [displayResult_of_isFinite hfinite, Decimal.toText_congr hsign hmagnitude, toText_decimalOf]

/-- The digits may be those of another script, with zeros at both ends. -/
theorem displayResult_literal_thirty_four :
    ∃ x, (evaluate .standard "00٣٤.50".toList).outcome = .ok x ∧
      displayResult .standard x = .ok "34.5".toList := by
  have hcanonical : canonicalText "00٣٤.50".toList = "34.5".toList := by decide
  have hnumber : "00٣٤.50".toList.all isNumberChar = true := by decide
  rw [← hcanonical]
  apply displayResult_literal
  · exact List.all_eq_true.mp hnumber
  · decide
  · decide +kernel
  · decide
  · decide

end Calculator
