import Calculator.Proofs.Evaluation.Stack
import Mathlib.Tactic.SplitIfs

/-!
# Operands that are made up

Where an operand is missing a value is made up for it, always the same one.  So copies of that value
below all others go unnoticed: an operator that finds one computes with what it would have made up
(`endsAlike_pop`), and from stacks that differ in such copies a run of tokens ends alike
(`endsAlike_run`), either with the same failure or with stacks that still differ in nothing else.
If the value of nothing is the same value once more, the answers are equal (`endsAlike_answer`).
-/

namespace Calculator

/-! ### Computations that end alike -/

namespace Traced

variable {ω α β α' β' : Type} {r : α → β → Prop} {r' : α' → β' → Prop}

/-- Both computations end with the same failure, or with answers that are related. -/
def EndsAlike (r : α → β → Prop) (x : Traced ω α) (y : Traced ω β) : Prop :=
  match x.outcome, y.outcome with
  | .ok a, .ok b => r a b
  | .error failure, .error failure' => failure = failure'
  | _, _ => False

theorem endsAlike_pure {a : α} {b : β} (h : r a b) :
    EndsAlike r (Pure.pure a : Traced ω α) (Pure.pure b) := h

theorem EndsAlike.refl (x : Traced ω α) : EndsAlike Eq x x := by
  unfold EndsAlike
  cases x.outcome <;> rfl

theorem EndsAlike.outcome_eq {x y : Traced ω α} (h : EndsAlike Eq x y) : x.outcome = y.outcome := by
  unfold EndsAlike at h
  split at h
  · next hx hy => rw [hx, hy, h]
  · next hx hy => rw [hx, hy, h]
  · exact h.elim

theorem EndsAlike.bind {x : Traced ω α} {y : Traced ω β} {f : α → Traced ω α'}
    {g : β → Traced ω β'} (h : EndsAlike r x y) (h' : ∀ a b, r a b → EndsAlike r' (f a) (g b)) :
    EndsAlike r' (x >>= f) (y >>= g) := by
  unfold EndsAlike at h
  split at h
  · next a b hx hy =>
    have hab := h' a b h
    rw [bind_of_ok hx, bind_of_ok hy]
    exact hab
  · next failure failure' hx hy =>
    rw [bind_of_error hx, bind_of_error hy]
    exact h
  · exact h.elim

end Traced

namespace Evaluation

open Traced (EndsAlike endsAlike_pure)

/-! ### Stacks on top of copies -/

/-- The second stack is the first one on top of some copies of the value that is made up. -/
def IsPadded (missing : Binary64) (stack padded : Stack) : Prop :=
  ∃ n, padded = stack ++ List.replicate n missing

section

variable {missing : Binary64} {stack padded : Stack}

theorem IsPadded.refl (missing : Binary64) (stack : Stack) : IsPadded missing stack stack :=
  ⟨0, (List.append_nil stack).symm⟩

theorem IsPadded.cons (h : IsPadded missing stack padded) (x : Binary64) :
    IsPadded missing (x :: stack) (x :: padded) := by
  obtain ⟨n, rfl⟩ := h
  exact ⟨n, rfl⟩

/-- An operator takes off a copy what it would have made up. -/
theorem endsAlike_pop (h : IsPadded missing stack padded) (operator : Text) :
    EndsAlike (fun a b => a.1 = b.1 ∧ IsPadded missing a.2 b.2) (pop missing operator stack)
      (pop missing operator padded) := by
  obtain ⟨n, rfl⟩ := h
  cases stack with
  | cons x rest => exact endsAlike_pure ⟨rfl, n, rfl⟩
  | nil =>
    cases n with
    | zero => exact ⟨rfl, IsPadded.refl missing []⟩
    | succ n => exact ⟨rfl, n, rfl⟩

theorem endsAlike_step (h : IsPadded missing stack padded) (t : Token) :
    EndsAlike (IsPadded missing) (step missing stack t) (step missing padded t) := by
  cases t with
  | number n =>
    refine (EndsAlike.refl (.ofExcept (valueOf n))).bind ?_
    rintro x _ rfl
    exact endsAlike_pure (h.cons x)
  | operator op =>
    unfold step
    dsimp only
    split_ifs
    · refine (endsAlike_pop h op.name).bind ?_
      rintro ⟨x, rest⟩ ⟨_, rest'⟩ ⟨rfl, hrest⟩
      refine (EndsAlike.refl (.ofExcept (operation OperatorKind.unary? op.kind))).bind ?_
      rintro f _ rfl
      exact endsAlike_pure (hrest.cons (f x))
    · refine (endsAlike_pop h op.name).bind ?_
      rintro ⟨y, rest⟩ ⟨_, rest'⟩ ⟨rfl, hrest⟩
      refine (endsAlike_pop hrest op.name).bind ?_
      rintro ⟨x, rest⟩ ⟨_, rest'⟩ ⟨rfl, hrest⟩
      refine (EndsAlike.refl (.ofExcept (operation OperatorKind.binary? op.kind))).bind ?_
      rintro f _ rfl
      exact endsAlike_pure (hrest.cons (f x y))
    · exact (rfl : Failure.unexpectedArity op.arity op.name = _)
  | leftParen p | rightParen p => exact h

theorem endsAlike_run (h : IsPadded missing stack padded) (tokens : List Token) :
    EndsAlike (IsPadded missing) (run missing tokens stack) (run missing tokens padded) := by
  induction tokens generalizing stack padded with
  | nil => exact endsAlike_pure h
  | cons t rest ih => exact (endsAlike_step h t).bind fun _ _ h' => ih h'

/-- A copy that is left over is the value of nothing. -/
theorem endsAlike_answer (h : IsPadded missing stack padded) (tokens tokens' : List Token) :
    EndsAlike Eq (answer missing tokens stack) (answer missing tokens' padded) := by
  obtain ⟨n, rfl⟩ := h
  unfold EndsAlike
  cases stack with
  | cons x rest => rw [List.cons_append, outcome_answer_cons, outcome_answer_cons]
  | nil =>
    cases n with
    | zero => rfl
    | succ n =>
      rw [List.nil_append, List.replicate_succ, outcome_answer_cons]
      rfl

end

end Evaluation

end Calculator
