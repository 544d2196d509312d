import Calculator.Proofs.Evaluation.MissingOperands
import Calculator.Proofs.Evaluation.Stack
import Mathlib.Order.Bounds.Defs

/-!
# How many operands are made up

Whether an operand has to be made up depends on nothing but how high the stack is.  A token takes
some values off it and puts some back (`Token.takes`, `Token.puts`), so the heights that the stack
goes through, and how much is missing on the way (`shortfall`), are known without computing any
value.  A run that ends with a stack makes up exactly what is missing (`counts_run`).

More values at the bottom of the stack fill in for operands that are missing, one for one
(`shortfall_add`).  So the operands that are made up for some tokens are as many as the fewest zeros
that must stand before them if none is to be made up (`outcome_evaluatePostfix_zeros`).  The zeros
change neither the value nor the failure, since a zero is what would have been made up.
-/

namespace Calculator

/-! ### Counting -/

/-- The note that an operand was made up. -/
def Note.isMissingOperand : Note → Bool
  | .missingOperand _ => true
  | _ => false

namespace Token

/-- A number. -/
def isNumber : Token → Bool
  | number _ => true
  | _ => false

/-- An operator of two operands. -/
def isBinary : Token → Bool
  | operator op => op.arity == 2
  | _ => false

/-- How many values a token takes off the stack. -/
def takes : Token → Nat
  | operator op => op.arity.toNat
  | _ => 0

/-- How many values a token puts on the stack. -/
def puts : Token → Nat
  | number _ | operator _ => 1
  | leftParen _ | rightParen _ => 0

end Token

namespace Traced

variable {α β : Type}

/-- How many operands were made up in a computation. -/
def madeUp (x : Traced Note α) : Nat := x.trace.countP Note.isMissingOperand

/-- Behind an answer of two computations in sequence stand an answer of the first and one of the
second, and each made up its own operands. -/
theorem exists_of_outcome_bind {x : Traced Note α} {f : α → Traced Note β} {b : β}
    (h : (x >>= f).outcome = .ok b) :
    ∃ a, x.outcome = .ok a ∧ (f a).outcome = .ok b ∧
      (x >>= f).madeUp = x.madeUp + (f a).madeUp := by
  cases hx : x.outcome with
  | ok a =>
    rw [bind_of_ok hx] at h ⊢
    exact ⟨a, rfl, h, List.countP_append⟩
  | error failure =>
    rw [bind_of_error hx] at h
    cases h

end Traced

namespace Evaluation

open Traced (exists_of_outcome_bind)

/-! ### What is missing -/

/-- How many operands are missing to some tokens if the stack has the given height before them. -/
def shortfall : List Token → (height : Nat) → Nat
  | [], _ => 0
  | t :: rest, height => (t.takes - height) + shortfall rest (height - t.takes + t.puts)

/-- More values fill in for missing operands, one for one. -/
theorem shortfall_add (tokens : List Token) (height extra : Nat) :
    shortfall tokens (height + extra) = shortfall tokens height - extra := by
  induction tokens generalizing height extra with
  | nil => exact (Nat.zero_sub extra).symm
  | cons t rest ih =>
    -- what the first token does not use up is there for the others
    have hheight : height + extra - t.takes + t.puts =
        height - t.takes + t.puts + (extra - (t.takes - height)) := by omega
    rw [shortfall, shortfall, hheight, ih]
    omega

/-! ### Steps and runs -/

variable {missing : Binary64} {stack stack' : Stack}

/-- Taking a value off the stack makes it up if there is none. -/
theorem counts_pop {operator : Text} {x : Binary64} {rest : Stack}
    (h : (pop missing operator stack).outcome = .ok (x, rest)) :
    (pop missing operator stack).madeUp = 1 - stack.length ∧ rest.length = stack.length - 1 := by
  cases stack with
  | nil =>
    cases h
    exact ⟨rfl, rfl⟩
  | cons y others =>
    cases h
    exact ⟨(Nat.sub_eq_zero_of_le (Nat.le_add_left 1 rest.length)).symm, rfl⟩

/-- A token that leaves a stack makes up what it does not find there. -/
theorem counts_step {t : Token} (h : (step missing stack t).outcome = .ok stack') :
    (step missing stack t).madeUp = t.takes - stack.length ∧
      stack'.length = stack.length - t.takes + t.puts ∧
      t.takes + t.isNumber.toNat = t.puts + t.isBinary.toNat := by
  cases t with
  | number n =>
    unfold step at h ⊢
    obtain ⟨x, hx, hpure, hmade⟩ := exists_of_outcome_bind h
    cases hpure
    rw [hmade]
    exact ⟨(Nat.zero_sub stack.length).symm, rfl, rfl⟩
  | operator op =>
    unfold step at h ⊢
    dsimp only at h ⊢
    split_ifs at h ⊢ with hone htwo
    · obtain ⟨⟨x, rest⟩, hpop, h, hmade⟩ := exists_of_outcome_bind h
      obtain ⟨f, hf, h, hmade'⟩ := exists_of_outcome_bind h
      obtain ⟨hcount, hlength⟩ := counts_pop hpop
      cases h
      have htakes : (Token.operator op).takes = 1 := by simp [Token.takes, hone]
      have hbinary : (Token.operator op).isBinary = false := by simp [Token.isBinary, hone]
      rw [hmade, hmade', htakes, hbinary, hcount, List.length_cons, hlength]
      exact ⟨rfl, rfl, rfl⟩
    · obtain ⟨⟨y, rest⟩, hpop, h, hmade⟩ := exists_of_outcome_bind h
      obtain ⟨⟨x, rest'⟩, hpop', h, hmade'⟩ := exists_of_outcome_bind h
      obtain ⟨f, hf, h, hmade''⟩ := exists_of_outcome_bind h
      obtain ⟨hcount, hlength⟩ := counts_pop hpop
      obtain ⟨hcount', hlength'⟩ := counts_pop hpop'
      cases h
      have htakes : (Token.operator op).takes = 2 := by simp [Token.takes, htwo]
      have hbinary : (Token.operator op).isBinary = true := by simp [Token.isBinary, htwo]
      rw [hmade, hmade', hmade'', htakes, hbinary, hcount, hcount', List.length_cons, hlength',
        hlength]
      refine ⟨?_, rfl, rfl⟩
      show 1 - stack.length + (1 - (stack.length - 1) + 0) = 2 - stack.length
      omega
    · cases h
  | leftParen p | rightParen p =>
    cases h
    exact ⟨(Nat.zero_sub stack.length).symm, rfl, rfl⟩

/-- A run that leaves a stack makes up what is missing, and every value that was put on the stack
or made up was taken off it or is there in the end. -/
theorem counts_run {tokens : List Token} (h : (run missing tokens stack).outcome = .ok stack') :
    (run missing tokens stack).madeUp = shortfall tokens stack.length ∧
      stack'.length + tokens.countP Token.isBinary =
        stack.length + tokens.countP Token.isNumber + shortfall tokens stack.length := by
  induction tokens generalizing stack with
  | nil =>
    cases h
    exact ⟨rfl, rfl⟩
  | cons t rest ih =>
    unfold run at h ⊢
    obtain ⟨reached, hstep, h, hmade⟩ := exists_of_outcome_bind h
    obtain ⟨hmissing, hheight, hbalance⟩ := counts_step hstep
    obtain ⟨hrest, hlength⟩ := ih h
    have hcount (p : Token → Bool) : (t :: rest).countP p = rest.countP p + (p t).toNat := by
      rw [List.countP_cons]
      cases p t <;> rfl
    rw [hheight] at hrest hlength
    rw [hmade, hmissing, hrest, shortfall, hcount, hcount]
    refine ⟨rfl, ?_⟩
    omega

/-- The answer that a stack holds is not made up of missing operands. -/
theorem madeUp_answer (emptyResult : Binary64) (tokens : List Token) (stack : Stack) :
    (answer emptyResult tokens stack).madeUp = 0 := by
  cases stack with
  | nil => rfl
  | cons x rest => cases rest <;> rfl

/-! ### Zeros in front -/

/-- Each zero is put on the stack, and none is missing an operand. -/
theorem run_zeros (missing : Binary64) (k : Nat) (stack : Stack) :
    run missing (List.replicate k (.ofLiteral ['0'])) stack =
      pure (List.replicate k (.zero false) ++ stack) := by
  have hzero : ∀ c ∈ ['0'], isNumberChar c = true := List.forall_mem_singleton.mpr (by decide)
  have hmalformed : isMalformed ['0'] = false := by decide
  have hvalue : literalValue ['0'] = .zero false := by decide +kernel
  induction k generalizing stack with
  | zero => rfl
  | succ k ih =>
    rw [List.replicate_succ, run, step_ofLiteral (List.cons_ne_nil '0' []) hzero, hmalformed,
      if_neg Bool.false_ne_true, hvalue, pure_bind, ih, List.replicate_succ', List.append_assoc,
      List.singleton_append]

theorem run_zeros_append (missing : Binary64) (k : Nat) (tokens : List Token) :
    run missing (List.replicate k (.ofLiteral ['0']) ++ tokens) [] =
      run missing tokens (List.replicate k (.zero false)) := by
  rw [run_append, run_zeros, pure_bind, List.append_nil]

end Evaluation

section

variable {s : Settings} {tokens : List Token} {x : Binary64}

/-- Zeros in front are what would be made up, and what is made of nothing. -/
theorem outcome_zeros_append (hmissing : s.missingOperand = .zero false)
    (hempty : s.emptyResult = .zero false) (tokens : List Token) (k : Nat) :
    (evaluatePostfix s (List.replicate k (.ofLiteral ['0']) ++ tokens)).outcome =
      (evaluatePostfix s tokens).outcome := by
  have hpadded : Evaluation.IsPadded s.missingOperand [] (List.replicate k s.missingOperand) :=
    ⟨k, rfl⟩
  unfold evaluatePostfix
  rw [Evaluation.run_zeros_append, hempty, ← hmissing]
  refine (Traced.EndsAlike.outcome_eq ?_).symm
  refine (Evaluation.endsAlike_run hpadded tokens).bind ?_
  intro stack padded hstack
  exact Evaluation.endsAlike_answer hstack tokens _

/-- Tokens that have a value leave a stack, and make up what is missing to them. -/
theorem exists_stack_of_outcome (h : (evaluatePostfix s tokens).outcome = .ok x) :
    ∃ stack, (Evaluation.run s.missingOperand tokens []).outcome = .ok stack ∧
      stack.length + tokens.countP Token.isBinary =
        tokens.countP Token.isNumber + (evaluatePostfix s tokens).madeUp ∧
      (evaluatePostfix s tokens).madeUp = Evaluation.shortfall tokens 0 := by
  unfold evaluatePostfix at h ⊢
  obtain ⟨stack, hrun, -, hmade⟩ := Traced.exists_of_outcome_bind h
  obtain ⟨hshortfall, hlength⟩ := Evaluation.counts_run hrun
  rw [hmade, Evaluation.madeUp_answer, Nat.add_zero, hshortfall]
  refine ⟨stack, hrun, ?_, rfl⟩
  rw [hlength, List.length_nil, Nat.zero_add]

/-- With zeros in front as much less is made up. -/
theorem madeUp_zeros_append (hmissing : s.missingOperand = .zero false)
    (hempty : s.emptyResult = .zero false) (h : (evaluatePostfix s tokens).outcome = .ok x)
    (k : Nat) :
    (evaluatePostfix s (List.replicate k (.ofLiteral ['0']) ++ tokens)).madeUp =
      Evaluation.shortfall tokens 0 - k := by
  rw [← outcome_zeros_append hmissing hempty tokens k] at h
  unfold evaluatePostfix at h ⊢
  obtain ⟨stack, hrun, -, hmade⟩ := Traced.exists_of_outcome_bind h
  rw [hmade, Evaluation.madeUp_answer, Nat.add_zero]
  rw [Evaluation.run_zeros_append] at hrun ⊢
  rw [(Evaluation.counts_run hrun).1, List.length_replicate, ← Evaluation.shortfall_add,
    Nat.zero_add]

end

/-- **Zeros in front stand in for missing operands.**  However many there are, the tokens behind
them end with the same value or the same failure.  If they end with a value, then the operands that
were made up are as many as the fewest zeros with which none is, and the values left on the stack
are the numbers and the operands made up, less one for each operator of two operands. -/
theorem outcome_evaluatePostfix_zeros {s : Settings} (hmissing : s.missingOperand = .zero false)
    (hempty : s.emptyResult = .zero false) (tokens : List Token) :
    (∀ k, (evaluatePostfix s (List.replicate k (.ofLiteral ['0']) ++ tokens)).outcome =
      (evaluatePostfix s tokens).outcome) ∧
    ∀ x, (evaluatePostfix s tokens).outcome = .ok x →
      IsLeast {k | (evaluatePostfix s (List.replicate k (.ofLiteral ['0']) ++ tokens)).madeUp = 0}
        (evaluatePostfix s tokens).madeUp ∧
      ∃ stack, (Evaluation.run s.missingOperand tokens []).outcome = .ok stack ∧
        (stack.length : Int) = tokens.countP Token.isNumber - tokens.countP Token.isBinary +
          (evaluatePostfix s tokens).madeUp := by
  refine ⟨outcome_zeros_append hmissing hempty tokens, ?_⟩
  intro x hx
  obtain ⟨stack, hrun, hlength, hshortfall⟩ := exists_stack_of_outcome hx
  have hzeros := madeUp_zeros_append hmissing hempty hx
  refine ⟨⟨?_, ?_⟩, stack, hrun, ?_⟩
  · show (evaluatePostfix s _).madeUp = 0
    rw [hzeros, hshortfall, Nat.sub_self]
  · intro k hk
    have hk : (evaluatePostfix s _).madeUp = 0 := hk
    rw [hzeros] at hk
    rw [hshortfall]
    exact Nat.sub_eq_zero_iff_le.mp hk
  · omega

/-- A sum without operands, and a difference that lacks the first of its own. -/
theorem outcome_evaluatePostfix_zeros_three :
    (evaluatePostfix .standard [.ofKind .add, .closeParen, .ofLiteral ['7'], .ofKind .neg,
        .ofKind .mul, .ofKind .sub, .ofLiteral ['5']]).outcome = .ok (literalValue ['5']) ∧
      IsLeast {k | (evaluatePostfix .standard (List.replicate k (.ofLiteral ['0']) ++
        [.ofKind .add, .closeParen, .ofLiteral ['7'], .ofKind .neg, .ofKind .mul, .ofKind .sub,
          .ofLiteral ['5']])).madeUp = 0} 3 := by
  have hvalue : (evaluatePostfix .standard [.ofKind .add, .closeParen, .ofLiteral ['7'],
      .ofKind .neg, .ofKind .mul, .ofKind .sub, .ofLiteral ['5']]).outcome =
        .ok (literalValue ['5']) := by decide +kernel
  have hmade : (evaluatePostfix .standard [.ofKind .add, .closeParen, .ofLiteral ['7'],
      .ofKind .neg, .ofKind .mul, .ofKind .sub, .ofLiteral ['5']]).madeUp = 3 := by decide +kernel
  have hleast := (outcome_evaluatePostfix_zeros rfl rfl _).2 _ hvalue
  rw [hmade] at hleast
  exact ⟨hvalue, hleast.1⟩

end Calculator
