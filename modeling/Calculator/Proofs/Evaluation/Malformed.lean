import Calculator.Expression.Basic
import Calculator.Proofs.Arrangement.Conservation
import Calculator.Proofs.Evaluation.Stack

/-!
# What keeps a text from having a value

Only a malformed number does, and of several the leftmost is reported
(`outcome_evaluate_eq_find_malformed`).  The tokens of a text are of the usual kinds
(`isUsual_of_mem_tokenize`), of which none but a malformed literal stops the evaluation
(`outcome_run`), and arranging keeps the order of the literals.
-/

namespace Calculator

/-- A token that a text can hold: a run of digits and points, a usual operator or a usual
parenthesis. -/
inductive Token.IsUsual : Token → Prop where
  | literal {run : Text} (hne : run ≠ []) (h : ∀ c ∈ run, isNumberChar c = true) :
      IsUsual (.ofLiteral run)
  | kind (kind : OperatorKind) : IsUsual (.ofKind kind)
  | openParen : IsUsual .openParen
  | closeParen : IsUsual .closeParen

theorem Token.IsUsual.lacksSymbol {t : Token} (h : t.IsUsual) : t.lacksSymbol = false := by
  cases h with
  | literal | openParen | closeParen => rfl
  | kind kind => cases kind <;> rfl

theorem isUsual_of_mem_tokensFrom {operandDue : Bool} {s : Text} {t : Token}
    (h : t ∈ tokensFrom operandDue s) : t.IsUsual := by
  induction s using runInduction generalizing operandDue with
  | nil => simp at h
  | run run rest hne hrun hrest ih =>
    rw [tokensFrom_run hne hrun hrest] at h
    rcases List.mem_cons.mp h with rfl | h
    · exact .literal hne hrun
    · exact ih h
  | other c rest hc ih =>
    cases ht : charToken? operandDue c with
    | none => exact ih (tokensFrom_skipped hc ht rest ▸ h)
    | some t' =>
      rw [tokensFrom_symbol hc ht] at h
      rcases List.mem_cons.mp h with rfl | h
      · obtain ⟨kind, rfl⟩ | rfl | rfl := charToken?_eq_some ht
        · exact .kind kind
        · exact .openParen
        · exact .closeParen
      · exact ih h

theorem isUsual_of_mem_tokenize {s : Text} {t : Token} (h : t ∈ tokenize s) : t.IsUsual :=
  isUsual_of_mem_tokensFrom h

theorem isUsual_of_mem_arrange {s : Text} {t : Token} (h : t ∈ (arrange (tokenize s)).tokens) :
    t.IsUsual :=
  isUsual_of_mem_tokenize (mem_of_mem_arrange h).1

namespace Evaluation

/-- A usual token without a malformed literal leaves a stack. -/
theorem exists_step_of_isUsual {t : Token} (h : t.IsUsual)
    (hliteral : ∀ run ∈ t.literal?, isMalformed run = false) (missing : Binary64) (stack : Stack) :
    ∃ stack', (step missing stack t).outcome = .ok stack' := by
  cases h with
  | literal hne h =>
    rw [step_ofLiteral hne h, hliteral _ rfl]
    exact ⟨_, rfl⟩
  | kind kind => exact exists_step_ofKind kind missing stack
  | openParen | closeParen => exact ⟨stack, rfl⟩

/-- Usual tokens leave a stack unless a literal is malformed; then the first one is reported. -/
theorem outcome_run (missing : Binary64) {tokens : List Token} (h : ∀ t ∈ tokens, t.IsUsual)
    (stack : Stack) :
    match (tokens.filterMap Token.literal?).find? isMalformed with
    | some literal => (run missing tokens stack).outcome = .error (.malformedNumber literal)
    | none => ∃ stack', (run missing tokens stack).outcome = .ok stack' := by
  induction tokens generalizing stack with
  | nil => exact ⟨stack, rfl⟩
  | cons t rest ih =>
    obtain ⟨ht, hrest⟩ := List.forall_mem_cons.mp h
    rw [run, Traced.outcome_bind]
    -- either the first token ends the run, or it hands a stack on to the others
    by_cases hbad : ∃ literal ∈ t.literal?, isMalformed literal = true
    · obtain ⟨literal, hliteral, hmalformed⟩ := hbad
      have hstep : step missing stack t = .fail (.malformedNumber literal) := by
        cases ht with
        | literal hne hrun =>
          obtain rfl := Option.some.inj hliteral
          rw [step_ofLiteral hne hrun, if_pos hmalformed]
        | kind | openParen | closeParen => exact absurd hliteral (by simp [Token.literal?,
            Token.ofKind, Token.openParen, Token.closeParen])
      rw [List.filterMap_cons_some hliteral, List.find?_cons_of_pos hmalformed, hstep]
      rfl
    · have hgood : ∀ literal ∈ t.literal?, isMalformed literal = false := by
        simpa using hbad
      obtain ⟨stack', hstep⟩ := exists_step_of_isUsual ht hgood missing stack
      have hfind : ((t :: rest).filterMap Token.literal?).find? isMalformed =
          (rest.filterMap Token.literal?).find? isMalformed := by
        cases hliteral : t.literal? with
        | none => rw [List.filterMap_cons_none hliteral]
        | some literal =>
          rw [List.filterMap_cons_some hliteral, List.find?_cons_of_neg]
          simp [hgood literal hliteral]
      rw [hfind, hstep]
      exact ih hrest stack'

/-- There is an answer to every stack. -/
theorem exists_answer (emptyResult : Binary64) (tokens : List Token) (stack : Stack) :
    ∃ x, (answer emptyResult tokens stack).outcome = .ok x := by
  cases stack with
  | nil => exact ⟨emptyResult, rfl⟩
  | cons x rest => exact ⟨x, outcome_answer_cons emptyResult tokens x rest⟩

end Evaluation

/-- What an expression ends with is what its tokens in postfix order end with. -/
theorem outcome_evaluate (s : Settings) (text : Text) :
    (evaluate s text).outcome =
      (evaluatePostfix s (arrange (tokenize (sanitize s text))).tokens).outcome := by
  simp [evaluate, readTokens, arrangeNoted, Traced.outcome_bind, Traced.recordAll, Traced.record,
    Except.bind]

/-- **Only a malformed number keeps a text from having a value**, and the leftmost one is what is
reported.  Every operator has a symbol then, so that the tokens can be written down as well. -/
theorem outcome_evaluate_eq_find_malformed (s : Settings) (text : Text) :
    (match (numberRuns (sanitize s text)).find? isMalformed with
      | some run => (evaluate s text).outcome = .error (.malformedNumber run)
      | none => ∃ x, (evaluate s text).outcome = .ok x) ∧
    ∀ t ∈ (arrange (tokenize (sanitize s text))).tokens, t.lacksSymbol = false := by
  have husual : ∀ t ∈ (arrange (tokenize (sanitize s text))).tokens, t.IsUsual :=
    fun t ht => isUsual_of_mem_tokenize (mem_of_mem_arrange ht).1
  have hliterals : (arrange (tokenize (sanitize s text))).tokens.filterMap Token.literal? =
      numberRuns (sanitize s text) := by
    rw [filterMap_arrange (fun _ => rfl) (fun _ => rfl) (fun _ => rfl), literals_tokenize]
  refine ⟨?_, fun t ht => (husual t ht).lacksSymbol⟩
  have hrun := Evaluation.outcome_run s.missingOperand husual []
  rw [hliterals] at hrun
  rw [outcome_evaluate, evaluatePostfix, Traced.outcome_bind]
  split
  · next run hfind =>
    rw [hfind] at hrun
    rw [hrun]
    rfl
  · next hfind =>
    rw [hfind] at hrun
    obtain ⟨stack, hstack⟩ := hrun
    rw [hstack]
    exact Evaluation.exists_answer s.emptyResult _ stack

end Calculator
