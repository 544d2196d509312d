import Calculator.Proofs.Binary64.Redisplay
import Calculator.Proofs.Display.Characters
import Calculator.Proofs.Evaluation.Malformed
import Calculator.Proofs.Grammar.Evaluation

/-!
# Displayed results typed in again

A displayed result is an expression, and it evaluates to the number that it denotes
(`outcome_evaluate_toText`): its digits are one literal, and its minus sign stands where an operand
is due and negates that literal.  The number need not be the one that was displayed, as only eight
decimal places are, but it is displayed as the same text (`displayResult_typed`).
-/

namespace Calculator

/-- A spelling is an expression as it stands. -/
theorem Derivation.outcome_evaluate_spelling {s : Settings}
    (hs : s.glyphs = Settings.standard.glyphs) {n : Nonterminal} (d : Derivation n) :
    (evaluate s d.spelling).outcome = d.outcome := by
  rw [outcome_evaluate, sanitize_of_isPlain hs d.isPlain_of_mem_spelling, d.tokenize_spelling,
    d.arrange_tokens, d.evaluatePostfix_postorder]
  rfl

/-- An expression without a malformed literal has a value. -/
theorem Derivation.outcome_eq_value {n : Nonterminal} {d : Derivation n}
    (h : ∀ run ∈ d.literals, isMalformed run = false) : d.outcome = .ok d.value := by
  have hfind : d.literals.find? isMalformed = none := by
    rw [List.find?_eq_none]
    intro run hrun
    rw [h run hrun]
    exact Bool.false_ne_true
  rw [outcome, hfind]

namespace Decimal

variable (d : Decimal)

/-- The literal of a decimal without its sign. -/
def literal : Literal := ⟨d.run, d.run_ne_nil, d.isNumberChar_of_mem_run⟩

/-- The expression that the text of a decimal is: a literal, negated if there is a sign. -/
def expression : Derivation .unary :=
  if d.negative then .prefixed .neg (.literal d.literal) else .literal d.literal

theorem spelling_expression : d.expression.spelling = d.toText := by
  rw [toText_eq]
  unfold expression
  cases d.negative <;> rfl

theorem literals_expression : d.expression.literals = [d.run] := by
  unfold expression
  cases d.negative <;> rfl

theorem literalValue_run : literalValue d.run = .ofDecimal false d.digits d.exponent :=
  d.ofDecimal_run false

theorem value_expression : d.expression.value = d.toBinary64 := by
  unfold expression toBinary64
  cases d.negative with
  | false => exact d.literalValue_run
  | true =>
    show (literalValue d.run).neg = _
    rw [literalValue_run, Binary64.ofDecimal_eq_nearest, Binary64.ofDecimal_eq_nearest,
      Binary64.neg_nearest]
    rfl

theorem outcome_evaluate_toText {s : Settings} (hs : s.glyphs = Settings.standard.glyphs) :
    (evaluate s d.toText).outcome = .ok d.toBinary64 := by
  have hliterals : ∀ run ∈ d.expression.literals, isMalformed run = false := by
    intro run hrun
    rw [literals_expression, List.mem_singleton] at hrun
    rw [hrun, d.isMalformed_run]
  rw [← spelling_expression, Derivation.outcome_evaluate_spelling hs,
    Derivation.outcome_eq_value hliterals, value_expression]

end Decimal

/-- **A displayed result may be typed in again**: it evaluates without failure to the number that it
denotes, which has the sign of the number that was displayed, and is displayed as before. -/
theorem displayResult_typed {x : Binary64} (hx : x.isFinite = true) :
    ∃ text y, displayResult .standard x = .ok text ∧
      (evaluate .standard text).outcome = .ok y ∧
      Binary64.ofText? text = some y ∧
      y.isNegative = x.isNegative ∧
      displayResult .standard y = .ok text := by
  set d := x.toDecimal 8 with hd
  have hlow : 2 ^ 26 < 10 ^ 8 := by decide
  have hhigh : 10 ^ 8 < 2 ^ (26 + 1) := by decide
  obtain ⟨hfinite, hsign, hmagnitude⟩ :=
    Binary64.magnitude_toDecimal_toBinary64 hlow hhigh (by decide) hx
  rw [← hd] at hfinite hsign hmagnitude
  refine ⟨d.toText, d.toBinary64, displayResult_of_isFinite hx, d.outcome_evaluate_toText rfl,
    d.ofText?_toText, hsign, ?_⟩
  rw [displayResult_of_isFinite hfinite]
  refine congrArg Except.ok (Decimal.toText_congr ?_ hmagnitude)
  rw [Binary64.negative_toDecimal, hsign, hd, Binary64.negative_toDecimal]

/-- The negative number nearest to zero is displayed as a zero with a sign, and typing that gives
the zero with the sign. -/
theorem displayResult_typed_quantum :
    displayResult .standard (.finite true 1 0 (by decide)) = .ok "-0".toList ∧
      (evaluate .standard "-0".toList).outcome = .ok (.zero true) ∧
      displayResult .standard (.zero true) = .ok "-0".toList := by
  obtain ⟨text, y, htext, hvalue, hread, -, hagain⟩ :=
    displayResult_typed (x := .finite true 1 0 (by decide)) rfl
  have hshown : displayResult .standard (.finite true 1 0 (by decide)) = .ok "-0".toList := by
    decide +kernel
  obtain rfl : text = "-0".toList := by
    rw [hshown] at htext
    exact (Except.ok.inj htext).symm
  have hzero : Binary64.ofText? "-0".toList = some (.zero true) := by decide +kernel
  obtain rfl : y = .zero true := by
    rw [hzero] at hread
    exact (Option.some.inj hread).symm
  exact ⟨hshown, hvalue, hagain⟩

end Calculator
