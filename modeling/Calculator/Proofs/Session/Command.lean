import Calculator.Session.Step

/-!
# Commands among the steps of a session

The same thing can be done to a session by a call and by a key, and some steps do nothing to it:
they only read, or they fail (`Session.exists_failure_step`).  `Step.command?` says what a step
does, if it does anything (`Session.state_step`), so that a run is a run of its commands
(`Session.run_eq_foldl`).

A calculation does not depend on the whole session.  What it shows is `shown?` of the expression and
what it remembers is `success?` of it (`Session.state_calculate`), and of what is remembered the
newest part is kept (`SessionRules.retain`).
-/

namespace Calculator

/-- What can be done to a session. -/
inductive Command where
  /-- Text is appended to the expression. -/
  | type (text : Text)
  /-- A new expression is started. -/
  | clear
  /-- The last character is taken back. -/
  | delete
  /-- The expression is calculated. -/
  | calculate
  /-- The history is shown or put out of view. -/
  | toggle
  /-- The history is forgotten. -/
  | forget
deriving DecidableEq

/-- The command to append a text; no other value will do. -/
def Datum.command? : Datum → Option Command
  | .text s => some (.type s)
  | _ => none

/-- The command of a key, if the session knows the key and what came with it will do. -/
def Key.command? (payload : Datum) : Key → Option Command
  | .number | .operator => if payload.isVoid then none else payload.command?
  | .clear => some .clear
  | .delete => some .delete
  | .calculate => some .calculate
  | .toggleHistory => some .toggle
  | .clearHistory => some .forget
  | .foreign _ => none

/-- What a step does to a session, if it does anything. -/
def Step.command? : Step → Option Command
  | .append d => d.command?
  | .press key payload => key.command? payload
  | .clear => some .clear
  | .delete => some .delete
  | .calculate => some .calculate
  | .toggleHistory => some .toggle
  | .clearHistory => some .forget
  | .readFrame | .readTable | .describe | .compare _ | .overwriteCopy _ => none

/-- A step that only reads. -/
def Step.reads : Step → Bool
  | .readFrame | .readTable | .describe | .compare _ | .overwriteCopy _ => true
  | _ => false

/-! ### What is kept -/

section

variable (rules : SessionRules)

/-- The newest of some entries, whatever they are made of, as many as are kept. -/
def SessionRules.retain {α : Type} (entries : List α) : List α :=
  match rules.limit with
  | none => entries
  | some n => entries.take n

theorem trim_eq_retain (history : List Text) : rules.trim history = rules.retain history := by
  unfold SessionRules.trim SessionRules.retain
  cases rules.limit <;> rfl

theorem retain_nil {α : Type} : rules.retain ([] : List α) = [] := by
  unfold SessionRules.retain
  cases rules.limit with
  | none => rfl
  | some n => exact List.take_nil

theorem retain_map {α β : Type} (f : α → β) (entries : List α) :
    rules.retain (entries.map f) = (rules.retain entries).map f := by
  unfold SessionRules.retain
  cases rules.limit with
  | none => rfl
  | some n => exact List.map_take.symm

/-- An entry that was cut off is not kept later on either. -/
theorem retain_cons_retain {α : Type} (entry : α) (entries : List α) :
    rules.retain (entry :: rules.retain entries) = rules.retain (entry :: entries) := by
  unfold SessionRules.retain
  cases rules.limit with
  | none => rfl
  | some n => cases n <;> simp [List.take_take]

theorem mem_of_mem_retain {α : Type} {entries : List α} {entry : α}
    (h : entry ∈ rules.retain entries) : entry ∈ entries := by
  unfold SessionRules.retain at h
  split at h
  · exact h
  · exact List.mem_of_mem_take h

end

/-! ### Calculations -/

/-- The text of the value of an expression, if it has a value. -/
def success? (rules : SessionRules) (expression : Text) : Option Text :=
  if expression.isAllBlank then none
  else
    match (rules.evaluator expression).outcome with
    | .ok x => (displayResult rules.settings x).toOption
    | .error _ => none

/-- What is shown of an expression: its value, or an error if the evaluator finds that it has none.
Nothing is shown of a blank expression, nor when any other failure comes between. -/
def shown? (rules : SessionRules) (expression : Text) : Option Text :=
  if expression.isAllBlank then none
  else
    match (rules.evaluator expression).outcome with
    | .ok x => (displayResult rules.settings x).toOption
    | .error failure => if failure.isEvaluationError then some rules.settings.errorText else none

/-- The history behind a calculation: a value makes an entry of its own. -/
def historyBehind (rules : SessionRules) (expression : Text) (history : List Text) : List Text :=
  match success? rules expression with
  | some result => rules.retain (formatEntry rules.settings expression result :: history)
  | none => history

namespace Session

/-- What a command does. -/
def obey (rules : SessionRules) (s : SessionState) : Command → SessionState
  | .type text => { s with expression := s.expression ++ text }
  | .clear => clear s
  | .delete => delete s
  | .calculate => (calculate rules s).state
  | .toggle => toggleHistory s
  | .forget => clearHistory s

/-- A calculation changes the result and the history, and takes nothing but the expression. -/
theorem state_calculate (rules : SessionRules) (s : SessionState) :
    (calculate rules s).state =
      { s with
        result := (shown? rules s.expression).getD s.result
        history := historyBehind rules s.expression s.history } := by
  rw [calculate, shown?, historyBehind, success?]
  split
  · rfl
  · cases hvalue : (rules.evaluator s.expression).outcome with
    | ok x =>
      cases h : displayResult rules.settings x <;>
        simp [hvalue, h, remember, Except.toOption, trim_eq_retain]
    | error failure => cases h : failure.isEvaluationError <;> simp [hvalue, h]

theorem calculate_of_ok (rules : SessionRules) {s : SessionState}
    (hblank : s.expression.isAllBlank = false) {x : Binary64} {text : Text}
    (hx : (rules.evaluator s.expression).outcome = .ok x)
    (htext : displayResult rules.settings x = .ok text) :
    calculate rules s =
      ⟨remember rules s text, ⟨(rules.evaluator s.expression).trace, .ok (some text)⟩⟩ := by
  simp [calculate, hblank, hx, htext]

theorem calculate_of_error (rules : SessionRules) {s : SessionState}
    (hblank : s.expression.isAllBlank = false) {failure : Failure}
    (hfailure : (rules.evaluator s.expression).outcome = .error failure)
    (hevaluation : failure.isEvaluationError = true) :
    calculate rules s =
      ⟨{ s with result := rules.settings.errorText },
        ⟨(rules.evaluator s.expression).trace ++ [.failedEvaluation s.expression failure],
          .ok (some rules.settings.errorText)⟩⟩ := by
  simp [calculate, hblank, hfailure, hevaluation]

/-! ### Steps and their commands -/

/-- Appending does what its command does, if it has one. -/
theorem state_append (rules : SessionRules) (s : SessionState) (d : Datum) :
    (append s d).state = (d.command?.map (obey rules s)).getD s := by
  cases d <;> rfl

theorem state_perform (rules : SessionRules) (s : SessionState) {key : Key} {payload : Datum}
    (h : (key.appends && payload.isVoid) = false) :
    (perform rules s ⟨key, payload⟩).state =
      ((key.command? payload).map (obey rules s)).getD s := by
  cases key with
  | number | operator =>
    rw [perform, Key.command?, if_neg (by simpa [Key.appends] using h)]
    exact state_append rules s payload
  | clear | delete | calculate | toggleHistory | clearHistory | foreign kind => rfl

theorem state_press (rules : SessionRules) (s : SessionState) (key : Key) (payload : Datum) :
    (press rules s key payload).state = ((key.command? payload).map (obey rules s)).getD s := by
  rw [press, Action.ofKey]
  cases h : key.appends && payload.isVoid with
  | false => exact state_perform rules s h
  | true =>
    -- only a key that appends is refused for want of a text
    obtain ⟨hkey, hvoid⟩ := (Bool.and_eq_true _ _).mp h
    cases key with
    | number | operator =>
      rw [Key.command?, if_pos hvoid]
      rfl
    | clear | delete | calculate | toggleHistory | clearHistory | foreign kind =>
      simp [Key.appends] at hkey

/-- A step does what its command does, if it has one. -/
theorem state_step (rules : SessionRules) (s : SessionState) (x : Step) :
    (step rules s x).state = (x.command?.map (obey rules s)).getD s := by
  cases x with
  | append d => exact state_append rules s d
  | press key payload => exact state_press rules s key payload
  | _ => rfl

/-- A run does what its commands do, one after the other. -/
theorem run_eq_foldl (rules : SessionRules) (s : SessionState) (steps : List Step) :
    run rules s steps = (steps.filterMap Step.command?).foldl (obey rules) s := by
  rw [run]
  induction steps generalizing s with
  | nil => rfl
  | cons x rest ih =>
    rw [List.foldl_cons, ih, state_step]
    cases hx : x.command? with
    | none => rw [List.filterMap_cons_none hx]; rfl
    | some c => rw [List.filterMap_cons_some hx]; rfl

/-! ### Steps without a command -/

theorem append_of_command?_eq_none (s : SessionState) {d : Datum} (h : d.command? = none) :
    append s d = ⟨s, .fail (.appendedNotText d.typeName)⟩ := by
  cases d with
  | text t => simp [Datum.command?] at h
  | null | truth | integer | real | list | record => rfl

/-- A key without a command is refused. -/
theorem exists_failure_press (rules : SessionRules) (s : SessionState) {key : Key}
    {payload : Datum} (h : key.command? payload = none) :
    ∃ failure, (press rules s key payload).ending.outcome = .error failure := by
  rw [press, Action.ofKey]
  cases hkey : key.appends && payload.isVoid with
  | true => exact ⟨_, rfl⟩
  | false =>
    cases key with
    | number | operator =>
      rw [Key.command?, if_neg (by simpa [Key.appends] using hkey)] at h
      exact ⟨.appendedNotText payload.typeName, by simp [perform, append_of_command?_eq_none s h]⟩
    | foreign kind => exact ⟨_, rfl⟩
    | clear | delete | calculate | toggleHistory | clearHistory => simp [Key.command?] at h

/-- A step without a command fails unless it only reads. -/
theorem exists_failure_step (rules : SessionRules) (s : SessionState) {x : Step}
    (h : x.command? = none) (hreads : x.reads = false) :
    ∃ failure, (step rules s x).ending.outcome = .error failure := by
  cases x with
  | append d =>
    have h : d.command? = none := h
    exact ⟨.appendedNotText d.typeName, by simp [step, silent, append_of_command?_eq_none s h]⟩
  | press key payload => exact exists_failure_press rules s h
  | clear | delete | calculate | toggleHistory | clearHistory => simp [Step.command?] at h
  | readFrame | readTable | describe | compare other | overwriteCopy text =>
    simp [Step.reads] at hreads

end Session

end Calculator
