import Calculator.Proofs.Evaluation.Notes
import Calculator.Proofs.History.Frame

/-!
# Steps that are refused

A step is taken as a whole or not at all.  `Refused` lists what can keep a step from being taken,
and under the usual settings nothing else does (`Session.outcome_step_eq_error_iff`): results can be
shown and histories can be read, whatever they are.  A step that fails leaves the session as it was
(`Session.state_of_outcome_error`), and so does one that only reads (`Session.state_of_reads`).

An expression without a value is no failure of the step.  It is shown as an error, with one warning
(`Session.calculate_of_error`), and everything else stays.

The steps of a run that do something are its effective ones, and they alone lead to the same state.
All of this is put together in `Session.step_atomic`.
-/

namespace Calculator

/-- What keeps a step from being taken: something that is not text was to be appended, a key that
appends came without text, no session knows the key, or the evaluator failed for a reason other than
that the expression has no value. -/
inductive Refused (rules : SessionRules) (s : SessionState) : Step → Failure → Prop where
  /-- Something else than text was to be appended. -/
  | append {d : Datum} (hd : ∀ t, d ≠ .text t) :
      Refused rules s (.append d) (.appendedNotText d.typeName)
  /-- A key that appends came without anything to append. -/
  | pressVoid {key : Key} {d : Datum} (hkey : key.appends = true) (hvoid : d.isVoid = true) :
      Refused rules s (.press key d) (.actionWithoutText key.name)
  /-- A key that appends came with something else than text. -/
  | press {key : Key} {d : Datum} (hkey : key.appends = true) (hvoid : d.isVoid = false)
      (hd : ∀ t, d ≠ .text t) : Refused rules s (.press key d) (.appendedNotText d.typeName)
  /-- No session knows the key. -/
  | foreign (kind : OperatorKind) (d : Datum) :
      Refused rules s (.press (.foreign kind) d)
        (.unknownAction (Action.description ⟨.foreign kind, d⟩))
  /-- The evaluator failed, and not because the expression has no value. -/
  | calculate {x : Step} {failure : Failure} (hx : x.command? = some .calculate)
      (hblank : s.expression.isAllBlank = false)
      (hfailure : (rules.evaluator s.expression).outcome = .error failure)
      (hother : failure.isEvaluationError = false) : Refused rules s x failure

/-- The operation ends with a failure. -/
def Turn.fails {α : Type} (turn : Turn α) : Bool :=
  match turn.ending.outcome with
  | .ok _ => false
  | .error _ => true

theorem Turn.fails_iff {α : Type} {turn : Turn α} :
    turn.fails = true ↔ ∃ failure, turn.ending.outcome = .error failure := by
  unfold fails
  cases turn.ending.outcome with
  | ok a => simp
  | error failure => simp

/-- The warnings among the notes taken. -/
def Traced.warnings {α : Type} (x : Traced Note α) : List Note :=
  x.trace.filter fun n => n.level = .warning

/-- An evaluation takes no warnings. -/
theorem warnings_evaluate (settings : Settings) (text : Text) :
    (evaluate settings text).warnings = [] := by
  refine List.filter_eq_nil_iff.mpr fun n hn hwarning => ?_
  have hdebug : n.level = .debug := records_evaluate settings text n hn
  rw [hdebug] at hwarning
  exact absurd hwarning (by decide)

section

variable {ω α β : Type} {x : Traced ω α} {f : α → β}

theorem Traced.outcome_bind_pure {failure : Failure} :
    (x >>= fun a => Pure.pure (f a)).outcome = .error failure ↔ x.outcome = .error failure := by
  rw [outcome_bind]
  cases x.outcome with
  | ok a => simp [Except.bind]
  | error failure' => simp [Except.bind]

theorem Traced.trace_bind_pure : (x >>= fun a => Pure.pure (f a)).trace = x.trace := by
  cases h : x.outcome with
  | ok a => rw [bind_of_ok h, trace_pure, List.append_nil]
  | error failure => rw [bind_of_error h]

end

theorem Datum.command?_eq_none_iff {d : Datum} : d.command? = none ↔ ∀ t, d ≠ .text t := by
  cases d <;> simp [command?]

/-- An expression is calculated by a call or by a key. -/
theorem Step.command?_eq_calculate_iff {x : Step} :
    x.command? = some .calculate ↔ x = .calculate ∨ ∃ d, x = .press .calculate d := by
  constructor
  · intro h
    cases x with
    | append d => cases d <;> simp [command?, Datum.command?] at h
    | press key d =>
      cases key with
      | number | operator => cases d <;> simp [command?, Key.command?, Datum.command?] at h
      | calculate => exact .inr ⟨d, rfl⟩
      | _ => simp [command?, Key.command?] at h
    | calculate => exact .inl rfl
    | _ => simp [command?] at h
  · rintro (rfl | ⟨d, rfl⟩) <;> rfl

/-- Every history can be read under the usual settings. -/
theorem exists_historyRows (history : List Text) :
    ∃ rows, historyRows .standard history = .ok rows := by
  induction history with
  | nil => exact ⟨[], rfl⟩
  | cons entry rest ih =>
    obtain ⟨rows, hrows⟩ := ih
    obtain ⟨row, hrow⟩ : ∃ row, parseEntry .standard entry = .ok row := ⟨_, rfl⟩
    refine ⟨row :: rows, ?_⟩
    unfold historyRows at hrows ⊢
    rw [List.mapM_cons, hrow, hrows]
    rfl

namespace Session

variable {rules : SessionRules} {s : SessionState} {failure : Failure}

/-! ### Why a step is refused -/

theorem outcome_append_eq_error_iff {d : Datum} :
    (append s d).ending.outcome = .error failure ↔
      (∀ t, d ≠ .text t) ∧ failure = .appendedNotText d.typeName := by
  rw [← Datum.command?_eq_none_iff]
  cases hd : d.command? with
  | none => simp [append_of_command?_eq_none s hd, eq_comm]
  | some c =>
    cases d with
    | text t => simp [append, Datum.appendix]
    | _ => simp [Datum.command?] at hd

theorem calculate_of_other (hblank : s.expression.isAllBlank = false)
    (hfailure : (rules.evaluator s.expression).outcome = .error failure)
    (hother : failure.isEvaluationError = false) :
    calculate rules s = ⟨s, ⟨(rules.evaluator s.expression).trace, .error failure⟩⟩ := by
  simp [calculate, hblank, hfailure, hother]

/-- A calculation fails if the evaluator fails for another reason than want of a value. -/
theorem outcome_calculate_eq_error_iff (hrules : rules.settings = .standard) :
    (calculate rules s).ending.outcome = .error failure ↔
      s.expression.isAllBlank = false ∧ (rules.evaluator s.expression).outcome = .error failure ∧
        failure.isEvaluationError = false := by
  cases hblank : s.expression.isAllBlank with
  | true => simp [calculate, hblank]
  | false =>
    cases hvalue : (rules.evaluator s.expression).outcome with
    | ok x =>
      obtain ⟨text, htext⟩ := exists_displayResult x
      rw [calculate_of_ok rules hblank hvalue (hrules ▸ htext)]
      simp
    | error failure' =>
      cases hevaluation : failure'.isEvaluationError with
      | true =>
        rw [calculate_of_error rules hblank hvalue hevaluation]
        constructor
        · intro h
          cases h
        · rintro ⟨-, h, hother⟩
          obtain rfl := Except.error.inj h
          rw [hevaluation] at hother
          cases hother
      | false =>
        rw [calculate_of_other hblank hvalue hevaluation]
        constructor
        · intro h
          obtain rfl := Except.error.inj h
          exact ⟨rfl, rfl, hevaluation⟩
        · rintro ⟨-, h, -⟩
          exact congrArg Except.error (Except.error.inj h)

theorem state_of_calculates (rules : SessionRules) (s : SessionState) {x : Step}
    (hx : x.command? = some .calculate) : (step rules s x).state = (calculate rules s).state := by
  rcases Step.command?_eq_calculate_iff.mp hx with rfl | ⟨d, rfl⟩ <;> rfl

theorem trace_of_calculates (rules : SessionRules) (s : SessionState) {x : Step}
    (hx : x.command? = some .calculate) :
    (step rules s x).ending.trace = (calculate rules s).ending.trace := by
  rcases Step.command?_eq_calculate_iff.mp hx with rfl | ⟨d, rfl⟩
  · exact Traced.trace_bind_pure
  · exact Traced.trace_bind_pure.trans Traced.trace_bind_pure

theorem outcome_of_calculates {x : Step} (hx : x.command? = some .calculate) :
    (step rules s x).ending.outcome = .error failure ↔
      (calculate rules s).ending.outcome = .error failure := by
  rcases Step.command?_eq_calculate_iff.mp hx with rfl | ⟨d, rfl⟩
  · exact Traced.outcome_bind_pure
  · exact Traced.outcome_bind_pure.trans Traced.outcome_bind_pure

theorem outcome_press_appending {key : Key} {d : Datum} (hkey : key.appends = true)
    (hvoid : d.isVoid = false) :
    (press rules s key d).ending.outcome = .error failure ↔
      (append s d).ending.outcome = .error failure := by
  have hperform : perform rules s ⟨key, d⟩ = append s d := by
    cases key with
    | number | operator => rfl
    | _ => cases hkey
  have haction : Action.ofKey key d = .ok ⟨key, d⟩ := by simp [Action.ofKey, hvoid]
  unfold press
  rw [haction]
  dsimp only
  rw [hperform]
  exact Traced.outcome_bind_pure

theorem outcome_press_pressVoid {key : Key} {d : Datum} (hkey : key.appends = true)
    (hvoid : d.isVoid = true) :
    (press rules s key d).ending.outcome = .error (.actionWithoutText key.name) := by
  simp [press, Action.ofKey, hkey, hvoid]

theorem outcome_press_foreign (kind : OperatorKind) (d : Datum) :
    (press rules s (.foreign kind) d).ending.outcome =
      .error (.unknownAction (Action.description ⟨.foreign kind, d⟩)) :=
  rfl

theorem outcome_of_refused (hrules : rules.settings = .standard) {x : Step}
    (h : Refused rules s x failure) : (step rules s x).ending.outcome = .error failure := by
  cases h with
  | append hd =>
    exact Traced.outcome_bind_pure.mpr (outcome_append_eq_error_iff.mpr ⟨hd, rfl⟩)
  | pressVoid hkey hvoid => exact outcome_press_pressVoid hkey hvoid
  | press hkey hvoid hd =>
    exact (outcome_press_appending hkey hvoid).mpr (outcome_append_eq_error_iff.mpr ⟨hd, rfl⟩)
  | foreign kind d => exact outcome_press_foreign kind d
  | calculate hx hblank hfailure hother =>
    exact (outcome_of_calculates hx).mpr
      ((outcome_calculate_eq_error_iff hrules).mpr ⟨hblank, hfailure, hother⟩)

theorem refused_of_calculates (hrules : rules.settings = .standard) {x : Step}
    (hx : x.command? = some .calculate) (h : (step rules s x).ending.outcome = .error failure) :
    Refused rules s x failure := by
  have hcalculate := (outcome_of_calculates hx).mp h
  obtain ⟨hblank, hfailure, hother⟩ := (outcome_calculate_eq_error_iff hrules).mp hcalculate
  exact .calculate hx hblank hfailure hother

theorem refused_of_press (hrules : rules.settings = .standard) {key : Key} {d : Datum}
    (h : (press rules s key d).ending.outcome = .error failure) :
    Refused rules s (.press key d) failure := by
  cases hkey : key.appends with
  | true =>
    cases hvoid : d.isVoid with
    | true =>
      rw [outcome_press_pressVoid hkey hvoid] at h
      obtain rfl := Except.error.inj h
      exact .pressVoid hkey hvoid
    | false =>
      rw [outcome_press_appending hkey hvoid] at h
      obtain ⟨hd, rfl⟩ := outcome_append_eq_error_iff.mp h
      exact .press hkey hvoid hd
  | false =>
    cases key with
    | number | operator => cases hkey
    | calculate => exact refused_of_calculates hrules rfl h
    | foreign kind =>
      rw [outcome_press_foreign] at h
      obtain rfl := Except.error.inj h
      exact .foreign kind d
    | clear | delete | toggleHistory | clearHistory => cases h

/-- A step fails for the reasons it can be refused for, and for no other. -/
theorem outcome_step_eq_error_iff (hrules : rules.settings = .standard) {x : Step} :
    (step rules s x).ending.outcome = .error failure ↔ Refused rules s x failure := by
  refine ⟨fun h => ?_, outcome_of_refused hrules⟩
  cases x with
  | append d =>
    obtain ⟨hd, rfl⟩ := outcome_append_eq_error_iff.mp (Traced.outcome_bind_pure.mp h)
    exact .append hd
  | press key d => exact refused_of_press hrules h
  | calculate => exact refused_of_calculates hrules rfl h
  | readFrame | readTable =>
    obtain ⟨rows, hrows⟩ := exists_historyRows s.history
    simp [step, frame, hrules, hrows] at h
  | clear | delete | toggleHistory | clearHistory | describe | compare other | overwriteCopy text =>
    cases h

/-! ### What stays -/

theorem state_append_of_error {d : Datum} (h : (append s d).ending.outcome = .error failure) :
    (append s d).state = s := by
  have hd := (outcome_append_eq_error_iff.mp h).1
  rw [append_of_command?_eq_none s (Datum.command?_eq_none_iff.mpr hd)]

theorem state_calculate_of_error (h : (calculate rules s).ending.outcome = .error failure) :
    (calculate rules s).state = s := by
  cases hblank : s.expression.isAllBlank with
  | true => simp [calculate, hblank]
  | false =>
    cases hvalue : (rules.evaluator s.expression).outcome with
    | ok x =>
      cases hdisplay : displayResult rules.settings x with
      | ok text =>
        rw [calculate_of_ok rules hblank hvalue hdisplay] at h
        cases h
      | error failure' => simp [calculate, hblank, hvalue, hdisplay]
    | error failure' =>
      cases hevaluation : failure'.isEvaluationError with
      | true =>
        rw [calculate_of_error rules hblank hvalue hevaluation] at h
        cases h
      | false => rw [calculate_of_other hblank hvalue hevaluation]

theorem state_perform_of_error {a : Action}
    (h : (perform rules s a).ending.outcome = .error failure) : (perform rules s a).state = s := by
  obtain ⟨key, d⟩ := a
  cases key with
  | number | operator => exact state_append_of_error h
  | calculate => exact state_calculate_of_error (Traced.outcome_bind_pure.mp h)
  | foreign kind => rfl
  | clear | delete | toggleHistory | clearHistory => cases h

theorem state_press_of_error {key : Key} {d : Datum}
    (h : (press rules s key d).ending.outcome = .error failure) :
    (press rules s key d).state = s := by
  unfold press at h ⊢
  cases haction : Action.ofKey key d with
  | error failure' => rfl
  | ok a =>
    rw [haction] at h
    exact state_perform_of_error (Traced.outcome_bind_pure.mp h)

/-- A failed step leaves the session as it was, under any rules. -/
theorem state_of_outcome_error {x : Step} (h : (step rules s x).ending.outcome = .error failure) :
    (step rules s x).state = s := by
  cases x with
  | append d => exact state_append_of_error (Traced.outcome_bind_pure.mp h)
  | press key d => exact state_press_of_error h
  | calculate => exact state_calculate_of_error (Traced.outcome_bind_pure.mp h)
  | clear | delete | toggleHistory | clearHistory => cases h
  | readFrame | readTable | describe | compare other | overwriteCopy text => rfl

/-- A step that only reads leaves the session as it was. -/
theorem state_of_reads {x : Step} (h : x.reads = true) : (step rules s x).state = s := by
  cases x with
  | readFrame | readTable | describe | compare other | overwriteCopy text => rfl
  | _ => cases h

theorem state_of_fails_or_reads {x : Step} (h : (step rules s x).fails = true ∨ x.reads = true) :
    (step rules s x).state = s := by
  rcases h with hfails | hreads
  · obtain ⟨failure, hfailure⟩ := Turn.fails_iff.mp hfails
    exact state_of_outcome_error hfailure
  · exact state_of_reads hreads

/-! ### Effective steps -/

/-- The steps that neither fail in their turn nor only read. -/
def effective (rules : SessionRules) (s : SessionState) (steps : List Step) : List Step :=
  ((steps.zip (turns rules s steps)).filter fun (x, turn) => !turn.fails && !x.reads).map Prod.fst

theorem effective_cons (rules : SessionRules) (s : SessionState) (x : Step) (rest : List Step) :
    effective rules s (x :: rest) =
      if (step rules s x).fails || x.reads then effective rules (step rules s x).state rest
      else x :: effective rules (step rules s x).state rest := by
  cases hfails : (step rules s x).fails <;> cases hreads : x.reads <;>
    simp [effective, turns, hfails, hreads]

theorem run_cons (rules : SessionRules) (s : SessionState) (x : Step) (rest : List Step) :
    run rules s (x :: rest) = run rules (step rules s x).state rest :=
  rfl

/-- The effective steps alone lead to the same state. -/
theorem run_effective (rules : SessionRules) (s : SessionState) (steps : List Step) :
    run rules s (effective rules s steps) = run rules s steps := by
  induction steps generalizing s with
  | nil => rfl
  | cons x rest ih =>
    rw [effective_cons, run_cons]
    split_ifs with hidle
    · rw [state_of_fails_or_reads ((Bool.or_eq_true _ _).mp hidle)]
      exact ih s
    · rw [run_cons]
      exact ih _

/-! ### Expressions without a value -/

/-- The turn of a calculation that finds no value. -/
theorem step_of_evaluationError (hrules : rules.settings = .standard) {x : Step}
    (hx : x.command? = some .calculate) (hblank : s.expression.isAllBlank = false)
    (hfailure : (rules.evaluator s.expression).outcome = .error failure)
    (hevaluation : failure.isEvaluationError = true) :
    (step rules s x).state = { s with result := "Error".toList } ∧
    (step rules s x).fails = false ∧
    (step rules s x).ending.trace =
      (rules.evaluator s.expression).trace ++ [.failedEvaluation s.expression failure] := by
  have hcalculate := calculate_of_error rules hblank hfailure hevaluation
  refine ⟨?_, ?_, ?_⟩
  · rw [state_of_calculates rules s hx, hcalculate, hrules]
    rfl
  · rw [Bool.eq_false_iff, Ne, Turn.fails_iff]
    rintro ⟨failure', hfails⟩
    obtain ⟨-, h, hother⟩ := (outcome_calculate_eq_error_iff hrules).mp
      ((outcome_of_calculates hx).mp hfails)
    rw [hfailure] at h
    obtain rfl := Except.error.inj h
    rw [hevaluation] at hother
    cases hother
  · rw [trace_of_calculates rules s hx, hcalculate]

/-- **A step is taken as a whole or not at all.**  To calculate an expression that the evaluator
finds to have no value changes nothing but the result, which becomes an error, and takes one warning
besides those of the evaluator; the usual evaluator takes none.  A step fails for the reasons it can
be refused for, and for no other.  A step that fails, and one that only reads, leaves the session as
it was, and so a run leads to the same state without all of those. -/
theorem step_atomic (rules : SessionRules) (hrules : rules.settings = .standard)
    (s : SessionState) :
    (∀ (x : Step) (failure : Failure), x.command? = some .calculate →
      s.expression.isAllBlank = false →
      (rules.evaluator s.expression).outcome = .error failure →
      failure.isEvaluationError = true →
        (step rules s x).state = { s with result := "Error".toList } ∧
        (step rules s x).fails = false ∧
        (step rules s x).ending.warnings =
          (rules.evaluator s.expression).warnings ++ [.failedEvaluation s.expression failure]) ∧
    (∀ text, (evaluate .standard text).warnings = []) ∧
    (∀ (x : Step) (failure : Failure),
      (step rules s x).ending.outcome = .error failure ↔ Refused rules s x failure) ∧
    (∀ x : Step, (step rules s x).fails = true ∨ x.reads = true → (step rules s x).state = s) ∧
    ∀ steps : List Step, run rules s (effective rules s steps) = run rules s steps := by
  refine ⟨fun x failure hx hblank hfailure hevaluation => ?_, warnings_evaluate .standard,
    fun x failure => outcome_step_eq_error_iff hrules, fun x => state_of_fails_or_reads,
    run_effective rules s⟩
  obtain ⟨hstate, hfails, htrace⟩ := step_of_evaluationError hrules hx hblank hfailure hevaluation
  refine ⟨hstate, hfails, ?_⟩
  unfold Traced.warnings
  rw [htrace, List.filter_append]
  rfl

/-- A session that keeps one entry and whose evaluator breaks down at a question mark. -/
def brittle : SessionRules where
  settings := .standard
  evaluator text :=
    if text = ['?'] then .fail (.other "LookupError".toList ['?']) else evaluate .standard text
  limit := some 1
  limit_pos := by simp

theorem brittle_evaluator {text : Text} (h : text ≠ ['?']) :
    brittle.evaluator text = evaluate .standard text :=
  if_neg h

/-- A number with two points, calculated by a key, and a run of which six steps out of nine do
nothing. -/
theorem step_atomic_brittle :
    (step brittle ⟨"1.2.3".toList, ['7'], ["3+4 = 7".toList], true⟩
        (.press .calculate .null)).state =
      ⟨"1.2.3".toList, "Error".toList, ["3+4 = 7".toList], true⟩ ∧
    (step brittle ⟨"1.2.3".toList, ['7'], ["3+4 = 7".toList], true⟩
        (.press .calculate .null)).ending.warnings =
      [.failedEvaluation "1.2.3".toList (.malformedNumber "1.2.3".toList)] ∧
    Refused brittle ⟨['?'], [], [], false⟩ .calculate (.other "LookupError".toList ['?']) ∧
    run brittle .initial
        (effective brittle .initial
          [.append (.text ['?']), .calculate, .readTable, .append (.integer 3),
            .press .number .null, .press .operator (.truth true), .press (.foreign .pow) .null,
            .append (.text ['2']), .calculate]) =
      ⟨['?', '2'], ['2'], ["?2 = 2".toList], false⟩ ∧
    (effective brittle .initial
      [.append (.text ['?']), .calculate, .readTable, .append (.integer 3),
        .press .number .null, .press .operator (.truth true), .press (.foreign .pow) .null,
        .append (.text ['2']), .calculate]).length = 3 := by
  have hliteral := (step_atomic brittle rfl
    ⟨"1.2.3".toList, ['7'], ["3+4 = 7".toList], true⟩).1 (.press .calculate .null)
    (.malformedNumber "1.2.3".toList) rfl (by decide) (by decide +kernel) rfl
  refine ⟨hliteral.1, ?_, ?_, ?_, by decide +kernel⟩
  · rw [hliteral.2.2, brittle_evaluator (show "1.2.3".toList ≠ ['?'] by decide), warnings_evaluate]
    rfl
  · rw [← (step_atomic brittle rfl ⟨['?'], [], [], false⟩).2.2.1]
    rfl
  · rw [(step_atomic brittle rfl .initial).2.2.2.2]
    decide +kernel

end Session

end Calculator
