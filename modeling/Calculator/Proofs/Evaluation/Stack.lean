import Calculator.Expression.Evaluation
import Calculator.Proofs.Token.Scanning

/-!
# Steps of the stack

What the tokens of a text do to the stack.  A literal puts its value there or, if it is malformed,
ends the evaluation (`step_ofLiteral`).  An operator that finds its operands takes them off, puts
its result back and records nothing (`step_unary`, `step_binary`); one that does not find them goes
on all the same (`exists_step_ofKind`).  In the end the top value is the answer
(`outcome_answer_cons`).
-/

namespace Calculator.Evaluation

theorem readNumber_of_isNumberChar {run : Text} (hne : run ≠ [])
    (h : ∀ c ∈ run, isNumberChar c = true) :
    readNumber run =
      if isMalformed run then .error (.malformedNumber run) else .ok (literalValue run) := by
  rw [readNumber, Binary64.ofText?_of_isNumberChar hne h]
  cases isMalformed run <;> rfl

theorem step_ofLiteral {run : Text} (hne : run ≠ []) (h : ∀ c ∈ run, isNumberChar c = true)
    (missing : Binary64) (stack : Stack) :
    step missing stack (.ofLiteral run) =
      if isMalformed run then .fail (.malformedNumber run)
      else pure (literalValue run :: stack) := by
  simp only [Token.ofLiteral, step, valueOf, readNumber_of_isNumberChar hne h]
  cases isMalformed run <;> rfl

theorem step_unary {kind : OperatorKind} {f : Binary64 → Binary64} (hf : kind.unary? = some f)
    (missing x : Binary64) (stack : Stack) :
    step missing (x :: stack) (.ofKind kind) = pure (f x :: stack) := by
  cases kind <;> cases hf <;> rfl

theorem step_binary {kind : OperatorKind} {f : Binary64 → Binary64 → Binary64}
    (hf : kind.binary? = some f) (missing x y : Binary64) (stack : Stack) :
    step missing (y :: x :: stack) (.ofKind kind) = pure (f x y :: stack) := by
  cases kind <;> cases hf <;> rfl

/-- Whatever it finds, the usual operator of a kind leaves a stack. -/
theorem exists_step_ofKind (kind : OperatorKind) (missing : Binary64) (stack : Stack) :
    ∃ stack', (step missing stack (.ofKind kind)).outcome = .ok stack' := by
  match stack with
  | [] => cases kind <;> exact ⟨_, rfl⟩
  | [x] => cases kind <;> exact ⟨_, rfl⟩
  | y :: x :: stack => cases kind <;> exact ⟨_, rfl⟩

/-- The top value is the answer, whatever the note on the others says. -/
theorem outcome_answer_cons (emptyResult : Binary64) (tokens : List Token) (x : Binary64)
    (stack : Stack) : (answer emptyResult tokens (x :: stack)).outcome = .ok x := by
  cases stack <;> rfl

theorem run_append (missing : Binary64) (first second : List Token) (stack : Stack) :
    run missing (first ++ second) stack = run missing first stack >>= run missing second := by
  induction first generalizing stack with
  | nil => simp [run]
  | cons t first ih => simp [run, ih]

theorem run_singleton (missing : Binary64) (t : Token) (stack : Stack) :
    run missing [t] stack = step missing stack t := by
  simp [run]

end Calculator.Evaluation
