import Calculator.Proofs.Arrangement.Context
import Calculator.Proofs.Arrangement.Insertion
import Calculator.Proofs.Evaluation.Malformed
import Calculator.Proofs.Evaluation.MissingOperands
import Calculator.Proofs.Text.Replacement

/-!
# Two negations in a row

Two negations in a row, wherever an operand is due, change neither the value of a text nor its
failure (`outcome_evaluate_negated_twice`).  What follows them is cut into the same tokens.  None of
these binds tighter than a negation, so the two come out of the arrangement next to each other
(`emitsBetween_negations`), and together they leave the top value of the stack as it is.  If there
is no value at that point, they leave one behind that had not been there, but it is what any
operator would have made up later on, and the answer if there is none (`endsAlike_negations`).
-/

namespace Calculator

/-- Two negations. -/
def negations : List Operator := [.standard .neg, .standard .neg]

/-! ### Where they come out -/

/-- A negation binds as tightly as any usual operator. -/
theorem precedence_le_neg (kind : OperatorKind) :
    (Operator.standard kind).precedence ≤ (Operator.standard .neg).precedence := by
  cases kind <;> decide

theorem bindsAll_negations {tokens : List Token} (h : ∀ t ∈ tokens, t.IsUsual) :
    BindsAll negations tokens := by
  intro op hop _ waiting hwaiting
  obtain rfl : waiting = .standard .neg := List.eq_of_mem_replicate (n := 2) hwaiting
  generalize ht : Token.operator op = t at hop
  cases h t hop with
  | kind kind =>
    obtain rfl := Token.operator.inj ht
    exact decide_eq_true (precedence_le_neg kind)
  | literal | openParen | closeParen => cases ht

/-- In postfix order the two stand next to each other. -/
theorem emitsBetween_negations (before : List Token) {behind : List Token}
    (h : ∀ t ∈ behind, t.IsUsual) :
    EmitsBetween negations (arrange (before ++ behind)).tokens
      (arrange (before ++ (released negations ++ behind))).tokens := by
  obtain ⟨front, waiting, enclosing, harrange⟩ := exists_arrangeFrom_append before [] []
  have hwait : arrangeFrom (released negations ++ behind) waiting enclosing =
      arrangeFrom behind (negations ++ waiting) enclosing := by
    have hprefixed : (Operator.standard .neg).isPrefixed = true := rfl
    show arrangeFrom (.operator _ :: .operator _ :: behind) waiting enclosing = _
    rw [arrangeFrom_of_isPrefixed hprefixed, arrangeFrom_of_isPrefixed hprefixed]
    rfl
  rw [arrange, arrange, harrange, harrange, hwait]
  have hinserts : Inserts negations waiting enclosing (negations ++ waiting) enclosing :=
    .innermost [] waiting enclosing
  exact (exists_tokens_of_inserts (bindsAll_negations h) hinserts).append front.tokens

/-! ### What they do to the stack -/

namespace Evaluation

open Traced (EndsAlike)

/-- They leave the stack as it is, or an operand that was missing. -/
theorem endsAlike_negations (missing : Binary64) (stack : Stack) :
    EndsAlike (IsPadded missing) (pure stack) (run missing (released negations) stack) := by
  cases stack with
  | nil =>
    show IsPadded missing [] [missing.neg.neg]
    rw [Binary64.neg_neg]
    exact ⟨1, rfl⟩
  | cons x rest =>
    show IsPadded missing (x :: rest) (x.neg.neg :: rest)
    rw [Binary64.neg_neg]
    exact .refl missing (x :: rest)

/-- Behind anything and in front of anything, they do not change how a run ends. -/
theorem endsAlike_run_negations (missing : Binary64) (front back : List Token) (stack : Stack) :
    EndsAlike (IsPadded missing) (run missing (front ++ back) stack)
      (run missing (front ++ (released negations ++ back)) stack) := by
  rw [run_append, run_append]
  refine (EndsAlike.refl (run missing front stack)).bind ?_
  rintro reached _ rfl
  rw [run_append, ← pure_bind reached (run missing back)]
  refine (endsAlike_negations missing reached).bind ?_
  intro stack padded h
  exact endsAlike_run h back

end Evaluation

/-! ### The value of a text -/

theorem outcome_evaluatePostfix_negated_twice {s : Settings}
    (hs : s.emptyResult = s.missingOperand) {output output' : List Token}
    (h : EmitsBetween negations output output') :
    (evaluatePostfix s output').outcome = (evaluatePostfix s output).outcome := by
  obtain ⟨front, back, rfl, rfl⟩ := h
  apply Eq.symm
  apply Traced.EndsAlike.outcome_eq
  refine (Evaluation.endsAlike_run_negations s.missingOperand front back []).bind ?_
  intro stack padded hstack
  rw [hs]
  exact Evaluation.endsAlike_answer hstack _ _

/-- The two minus signs are negations, and what follows them is cut into tokens as before. -/
theorem tokenize_negated_twice {text : Text} (h : dueBehind true (tokenize text) = true)
    (behind : Text) :
    tokenize (text ++ behind) = tokenize text ++ tokenize behind ∧
      tokenize (text ++ ("--".toList ++ behind)) =
        tokenize text ++ (released negations ++ tokenize behind) := by
  have hminus (rest : Text) : tokensFrom true ('-' :: rest) =
      .ofKind .neg :: tokensFrom true rest := tokensFrom_symbol (by decide) rfl rest
  have hnegations : tokensFrom true ('-' :: '-' :: behind) =
      released negations ++ tokensFrom true behind := by
    rw [hminus, hminus]
    rfl
  constructor
  · exact tokensFrom_append_of_due h behind
  · exact (tokensFrom_append_of_due h _).trans (congrArg (tokensFrom true text ++ ·) hnegations)

/-- **Two minus signs where an operand is due change nothing**: not the value, and not the failure
if there is none.  What stands before and behind them may be any text. -/
theorem outcome_evaluate_negated_twice {s : Settings} (hs : s.glyphs = Settings.standard.glyphs)
    (hs' : s.emptyResult = s.missingOperand) {before : Text}
    (h : ∀ t ∈ (tokenize (sanitize s before)).getLast?, t.role = .leftParen ∨ t.role = .operator)
    (behind : Text) :
    (evaluate s (before ++ "--".toList ++ behind)).outcome =
      (evaluate s (before ++ behind)).outcome := by
  have hdue : dueBehind true (tokenize (sanitize s before)) = true := by
    unfold dueBehind
    cases hlast : (tokenize (sanitize s before)).getLast? with
    | none => rfl
    | some t =>
      have hrole := h t hlast
      cases t with
      | leftParen p | operator op => rfl
      | number n | rightParen p => rcases hrole with hrole | hrole <;> cases hrole
  have hplain : ∀ c ∈ "--".toList, IsPlain c := by simp [IsPlain, plain, isBlank]
  obtain ⟨hwithout, hwith⟩ := tokenize_negated_twice hdue (sanitize s behind)
  have husual : ∀ t ∈ tokenize (sanitize s behind), t.IsUsual := fun t => isUsual_of_mem_tokenize
  rw [outcome_evaluate, outcome_evaluate, List.append_assoc, sanitize_append hs, sanitize_append hs,
    sanitize_append hs, sanitize_of_isPlain hs hplain, hwith, hwithout]
  exact outcome_evaluatePostfix_negated_twice hs' (emitsBetween_negations _ husual)

/-- The end of a group without a start finds no value to negate, and a zero is left behind. -/
theorem outcome_evaluate_negated_twice_nothing :
    (tokenize (sanitize .standard "2+(".toList)).getLast? = some .openParen ∧
      (evaluate .standard "2+(--))÷".toList).outcome =
        (evaluate .standard "2+())÷".toList).outcome := by
  have hlast : (tokenize (sanitize .standard "2+(".toList)).getLast? = some .openParen := by decide
  have hdue : ∀ t ∈ (tokenize (sanitize .standard "2+(".toList)).getLast?,
      t.role = .leftParen ∨ t.role = .operator := by
    intro t ht
    rw [hlast] at ht
    obtain rfl := Option.some.inj ht
    exact .inl rfl
  exact ⟨hlast, outcome_evaluate_negated_twice rfl rfl hdue "))÷".toList⟩

end Calculator
