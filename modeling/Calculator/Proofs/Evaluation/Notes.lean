import Calculator.Proofs.Evaluation.Malformed

/-!
# Notes of an evaluation

An evaluation notes what it skipped, made up or left over, and all of these notes are for debugging
only (`records_evaluate`).  It ends with a value or with the failure of a malformed number
(`exists_outcome_evaluate`), which is a failure that a session shows.
-/

namespace Calculator

/-! ### What is recorded -/

namespace Traced

variable {ω α β : Type} {p : ω → Prop}

/-- Every event recorded is of a kind. -/
def Records (p : ω → Prop) (x : Traced ω α) : Prop := ∀ event ∈ x.trace, p event

theorem records_pure (a : α) : (Pure.pure a : Traced ω α).Records p := by
  intro event hevent
  exact absurd hevent List.not_mem_nil

theorem records_ofExcept (outcome : Except Failure α) :
    (ofExcept outcome : Traced ω α).Records p := by
  intro event hevent
  exact absurd hevent List.not_mem_nil

theorem records_record {event : ω} (h : p event) : (record event).Records p := by
  intro other hother
  obtain rfl := List.mem_singleton.mp hother
  exact h

theorem Records.bind {x : Traced ω α} {f : α → Traced ω β} (hx : x.Records p)
    (hf : ∀ a, (f a).Records p) : (x >>= f).Records p := by
  cases houtcome : x.outcome with
  | error failure =>
    rw [bind_of_error houtcome]
    exact hx
  | ok a =>
    rw [bind_of_ok houtcome]
    intro event hevent
    rcases List.mem_append.mp hevent with h | h
    · exact hx event h
    · exact hf a event h

end Traced

open Traced (Records records_pure records_ofExcept records_record)

/-- A note for debugging. -/
def Note.IsDebug (n : Note) : Prop := n.level = .debug

/-! ### Each stage -/

theorem isDebug_of_note? {l : Lexeme} {n : Note} (h : l.note? = some n) : n.IsDebug := by
  cases l with
  | number | symbol => exact absurd h (by simp [Lexeme.note?])
  | skipped index c =>
    obtain rfl := Option.some.inj h
    rfl

theorem records_readTokens (s : Text) : (readTokens s).Records Note.IsDebug := by
  refine Records.bind (fun n hn => ?_) fun _ => records_pure _
  obtain ⟨l, -, hl⟩ := List.mem_filterMap.mp hn
  exact isDebug_of_note? hl

theorem isDebug_of_mem_arrangeFrom (tokens : List Token) (waiting : List Operator)
    (enclosing : List (List Operator)) :
    ∀ n ∈ (arrangeFrom tokens waiting enclosing).notes, n.IsDebug := by
  -- notes are taken where the tokens end and where a group ends that never started
  fun_induction arrangeFrom tokens waiting enclosing with
  | case1 waiting enclosing =>
    intro n hn
    obtain ⟨group, -, rfl⟩ := List.mem_map.mp hn
    rfl
  | case4 rest waiting p ih =>
    intro n hn
    rcases List.mem_cons.mp hn with rfl | hn
    · rfl
    · exact ih n hn
  | _ => assumption

theorem records_arrangeNoted (tokens : List Token) :
    (arrangeNoted tokens).Records Note.IsDebug :=
  Records.bind (isDebug_of_mem_arrangeFrom tokens [] []) fun _ => records_pure _

namespace Evaluation

theorem records_pop (missing : Binary64) (operator : Text) (stack : Stack) :
    (pop missing operator stack).Records Note.IsDebug := by
  cases stack with
  | nil =>
    have hnote : (Note.missingOperand operator).IsDebug := rfl
    exact (records_record hnote).bind fun _ => records_pure _
  | cons x rest => exact records_pure _

theorem records_step (missing : Binary64) (stack : Stack) (t : Token) :
    (step missing stack t).Records Note.IsDebug := by
  cases t with
  | number n => exact (records_ofExcept _).bind fun _ => records_pure _
  | operator op =>
    unfold step
    dsimp only
    split_ifs
    · refine (records_pop missing op.name stack).bind fun _ => ?_
      exact (records_ofExcept _).bind fun _ => records_pure _
    · refine (records_pop missing op.name stack).bind fun _ => ?_
      refine (records_pop missing op.name _).bind fun _ => ?_
      exact (records_ofExcept _).bind fun _ => records_pure _
    · exact records_ofExcept (.error _)
  | leftParen p | rightParen p =>
    have hnote : (Note.ignoredParen p.name).IsDebug := rfl
    exact (records_record hnote).bind fun _ => records_pure _

theorem records_run (missing : Binary64) (tokens : List Token) (stack : Stack) :
    (run missing tokens stack).Records Note.IsDebug := by
  induction tokens generalizing stack with
  | nil => exact records_pure stack
  | cons t rest ih => exact (records_step missing stack t).bind ih

theorem records_answer (emptyResult : Binary64) (tokens : List Token) (stack : Stack) :
    (answer emptyResult tokens stack).Records Note.IsDebug := by
  cases stack with
  | nil => exact records_pure emptyResult
  | cons x rest =>
    have hnote : (Note.leftoverValues (rest.length + 1) tokens).IsDebug := rfl
    unfold answer
    dsimp only
    split_ifs
    · exact (records_record hnote).bind fun _ => records_pure x
    · exact records_pure x

end Evaluation

/-- **The notes of an evaluation are for debugging.** -/
theorem records_evaluate (s : Settings) (text : Text) :
    (evaluate s text).Records Note.IsDebug := by
  refine (records_readTokens _).bind fun tokens => ?_
  refine (records_arrangeNoted tokens).bind fun postfixOrder => ?_
  have hnote : (Note.arranged text postfixOrder).IsDebug := rfl
  refine (records_record hnote).bind fun _ => ?_
  exact (Evaluation.records_run s.missingOperand postfixOrder []).bind
    (Evaluation.records_answer s.emptyResult postfixOrder)

/-! ### How it ends -/

/-- An expression has a value unless a number in it is malformed. -/
theorem exists_outcome_evaluate (s : Settings) (text : Text) :
    (∃ x, (evaluate s text).outcome = .ok x) ∨
      ∃ run, (evaluate s text).outcome = .error (.malformedNumber run) := by
  have husual : ∀ t ∈ (arrange (tokenize (sanitize s text))).tokens, t.IsUsual :=
    fun _ => isUsual_of_mem_arrange
  have hrun := Evaluation.outcome_run s.missingOperand husual []
  rw [outcome_evaluate, evaluatePostfix, Traced.outcome_bind]
  split at hrun
  · rename_i run hfind
    rw [hrun]
    exact .inr ⟨run, rfl⟩
  · obtain ⟨stack, hstack⟩ := hrun
    rw [hstack]
    exact .inl (Evaluation.exists_answer s.emptyResult _ stack)

end Calculator
