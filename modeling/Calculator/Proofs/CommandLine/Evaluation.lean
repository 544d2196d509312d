import Calculator.CommandLine.Program
import Calculator.Proofs.Evaluation.Notes
import Calculator.Proofs.History.Frame

/-!
# Evaluating expressions in order

A program run evaluates its expressions in one session, but each as a new one.  What it prints of an
expression depends on nothing but that expression (`resultLine`), and what it keeps is one entry of
the history, or one more failure to tell of (`evaluateOne_spec`).  So the lines of some expressions
are those of each of them, and the history holds the latest of those that have a value
(`evaluateAll_spec`, `history_foldl_add`).
-/

namespace Calculator

/-! ### What was printed and noted -/

namespace Event

/-- How many expressions have no value, as told by the note on that. -/
def failedCount? : Event → Option ℕ
  | noted (.failedExpressions count) => some count
  | _ => none

theorem output_append (events events' : List Event) :
    output (events ++ events') = output events ++ output events' :=
  List.flatMap_append

theorem output_map_noted (notes : List Note) : output (notes.map .noted) = [] := by
  rw [output, List.flatMap_map]
  exact List.flatMap_eq_nil_iff.mpr fun n _ => rfl

end Event

/-- The note does not tell how many expressions have no value. -/
def Note.IsQuiet (n : Note) : Prop := Event.failedCount? (.noted n) = none

theorem Note.IsDebug.isQuiet {n : Note} (h : n.IsDebug) : n.IsQuiet := by
  cases n with
  | failedExpressions count => exact absurd h (by simp [IsDebug, level])
  | _ => rfl

theorem Event.filterMap_map_noted {notes : List Note} (h : ∀ n ∈ notes, n.IsQuiet) :
    (notes.map noted).filterMap failedCount? = [] := by
  rw [List.filterMap_map, List.filterMap_eq_nil_iff]
  exact h

namespace Program

/-! ### Results -/

/-- The rules of a session under the usual settings. -/
def usualRules (limit : Option ℕ) (h : ∀ n ∈ limit, 0 < n) : SessionRules :=
  ⟨.standard, evaluate .standard, limit, h⟩

/-- What is printed as the result of an expression: its value or, if it has none, an error.  A blank
expression has no result. -/
def result? (expression : Text) : Option Text :=
  if expression.isAllBlank then none
  else
    match (evaluate .standard expression).outcome with
    | .ok x => (displayResult .standard x).toOption
    | .error failure =>
      if failure.isEvaluationError then some Settings.standard.errorText else none

/-- The line that is printed of an expression, if it has a result. -/
def resultLine (expression : Text) : Text :=
  match result? expression with
  | none => []
  | some result => formatEntry .standard expression result ++ ['\n']

/-- The expression has a result, which is an error. -/
def lacksValue (expression : Text) : Bool :=
  result? expression == some Settings.standard.errorText

/-- The result of an expression that is not an error. -/
def value? (expression : Text) : Option Text :=
  (result? expression).filter (· ≠ Settings.standard.errorText)

/-- The expressions that have a value, with their results. -/
def rowsOf (expressions : List Text) : List (Text × Text) :=
  expressions.filterMap fun expression => (value? expression).map fun result => (expression, result)

/-- No number is displayed as an error. -/
theorem ne_errorText {x : Binary64} {text : Text} (h : displayResult .standard x = .ok text) :
    text ≠ Settings.standard.errorText := by
  rintro rfl
  exact notMem_displayResult h (by decide : isNumberChar 'E' = false) (by decide) (by decide)

/-- The result of an expression is the text of its value, or an error if the evaluation fails. -/
theorem result?_spec {expression : Text} (h : expression.isAllBlank = false) :
    (∃ x result, (evaluate .standard expression).outcome = .ok x ∧
      displayResult .standard x = .ok result ∧ result ≠ Settings.standard.errorText ∧
      result? expression = some result) ∨
    ∃ failure, (evaluate .standard expression).outcome = .error failure ∧
      failure.isEvaluationError = true ∧
      result? expression = some Settings.standard.errorText := by
  have hresult : result? expression =
      match (evaluate .standard expression).outcome with
      | .ok x => (displayResult .standard x).toOption
      | .error failure =>
        if failure.isEvaluationError then some Settings.standard.errorText else none :=
    if_neg (by rw [h]; decide)
  rcases exists_outcome_evaluate .standard expression with ⟨x, hx⟩ | ⟨run, hrun⟩
  · obtain ⟨text, htext⟩ := exists_displayResult x
    refine .inl ⟨x, text, hx, htext, ne_errorText htext, ?_⟩
    rw [hresult, hx]
    dsimp only
    rw [htext]
    rfl
  · refine .inr ⟨.malformedNumber run, hrun, rfl, ?_⟩
    rw [hresult, hrun]
    rfl

section

variable (limit : Option ℕ) (h : ∀ n ∈ limit, 0 < n)

theorem success?_eq_value? (expression : Text) :
    success? (usualRules limit h) expression = value? expression := by
  rw [value?]
  cases hblank : expression.isAllBlank with
  | true => simp [success?, result?, hblank]
  | false =>
    have hsuccess : success? (usualRules limit h) expression =
        match (evaluate .standard expression).outcome with
        | .ok x => (displayResult .standard x).toOption
        | .error _ => none := if_neg (by rw [hblank]; decide)
    rw [hsuccess]
    rcases result?_spec hblank with ⟨x, text, hx, htext, hne, hresult⟩ | ⟨f, hf, -, hresult⟩
    · rw [hx, hresult, Option.filter_some, if_pos (by simpa using hne)]
      dsimp only
      rw [htext]
      rfl
    · rw [hf, hresult, Option.filter_some, if_neg (by simp)]

/-- A calculation gives back the result, and takes no note of how many expressions have none. -/
theorem ending_calculate (s : SessionState) :
    ∃ notes : List Note, (∀ n ∈ notes, n.IsQuiet) ∧
      (Session.calculate (usualRules limit h) s).ending = ⟨notes, .ok (result? s.expression)⟩ := by
  have hquiet : ∀ n ∈ (evaluate .standard s.expression).trace, n.IsQuiet :=
    fun n hn => (records_evaluate .standard s.expression n hn).isQuiet
  cases hblank : s.expression.isAllBlank with
  | true =>
    refine ⟨[], by simp, ?_⟩
    rw [Session.calculate, if_pos hblank, result?, if_pos hblank]
    rfl
  | false =>
    rcases result?_spec hblank with ⟨x, text, hx, htext, -, hresult⟩ | ⟨f, hf, hfailure, hresult⟩
    · refine ⟨_, hquiet, ?_⟩
      rw [Session.calculate_of_ok (usualRules limit h) hblank hx htext, hresult]
      rfl
    · refine ⟨(evaluate .standard s.expression).trace ++ [.failedEvaluation s.expression f], ?_, ?_⟩
      · intro n hn
        rcases List.mem_append.mp hn with hn | hn
        · exact hquiet n hn
        · obtain rfl := List.mem_singleton.mp hn
          rfl
      · rw [Session.calculate_of_error (usualRules limit h) hblank hf hfailure, hresult]
        rfl

/-! ### One expression -/

/-- A text is all of the expression where nothing was typed before. -/
theorem append_clear (s : SessionState) (expression : Text) :
    Session.append (Session.clear s) (.text expression) =
      ⟨{ Session.clear s with expression := expression }, pure ()⟩ := rfl

theorem noting_pure {α : Type} (a : α) : noting (pure a) = pure a := rfl

/-- The tally behind one more expression. -/
def Tally.add (rules : SessionRules) (t : Tally) (expression : Text) : Tally where
  state := (Session.calculate rules { Session.clear t.state with expression := expression }).state
  failures := if lacksValue expression then t.failures + 1 else t.failures

/-- One expression adds its line to what is printed and itself to the tally. -/
theorem evaluateOne_spec (t : Tally) (expression : Text) :
    ∃ events, evaluateOne (usualRules limit h) t expression =
        ⟨events, .ok (t.add (usualRules limit h) expression)⟩ ∧
      Event.output events = resultLine expression ∧
      events.filterMap Event.failedCount? = [] := by
  set typed : SessionState := { Session.clear t.state with expression := expression } with htyped
  obtain ⟨notes, hquiet, hending⟩ := ending_calculate limit h typed
  have hnoting : noting (Session.calculate (usualRules limit h) typed).ending =
      ⟨notes.map .noted, .ok (result? expression)⟩ := by
    rw [hending]
    rfl
  have hquiet' := Event.filterMap_map_noted hquiet
  cases hresult : result? expression with
  | none =>
    have hlacks : lacksValue expression = false := by
      rw [lacksValue, hresult]
      rfl
    refine ⟨notes.map .noted ++ [], ?_, ?_, ?_⟩
    · unfold evaluateOne Tally.add
      rw [append_clear]
      dsimp only
      rw [noting_pure, pure_bind, ← htyped, hnoting, hresult, hlacks]
      rfl
    · rw [List.append_nil, Event.output_map_noted, resultLine, hresult]
    · rw [List.append_nil, hquiet']
  | some result =>
    have hlacks : lacksValue expression = decide (result = Settings.standard.errorText) := by
      rw [lacksValue, hresult, Bool.eq_iff_iff, beq_iff_eq, decide_eq_true_eq,
        Option.some.injEq]
    -- the line stands behind all notes of the calculation
    refine ⟨notes.map .noted ++ [.printed (formatEntry .standard expression result ++ ['\n'])],
      ?_, ?_, ?_⟩
    · unfold evaluateOne Tally.add
      rw [append_clear]
      dsimp only
      rw [noting_pure, pure_bind, ← htyped, hnoting, hresult, hlacks]
      simp only [decide_eq_true_eq]
      rfl
    · rw [Event.output_append, Event.output_map_noted, resultLine, hresult]
      exact List.append_nil _
    · rw [List.filterMap_append, hquiet']
      rfl

theorem history_add (t : Tally) (expression : Text) :
    (t.add (usualRules limit h) expression).state.history =
      historyBehind (usualRules limit h) expression t.state.history := by
  unfold Tally.add
  rw [Session.state_calculate]
  rfl

/-! ### Some expressions, one after the other -/

/-- Some expressions add their lines to what is printed and themselves to the tally, one after the
other. -/
theorem evaluateAll_spec (expressions : List Text) (t : Tally) :
    ∃ events, evaluateAll (usualRules limit h) t expressions =
        ⟨events, .ok (expressions.foldl (Tally.add (usualRules limit h)) t)⟩ ∧
      Event.output events = expressions.flatMap resultLine ∧
      events.filterMap Event.failedCount? = [] := by
  induction expressions generalizing t with
  | nil => exact ⟨[], rfl, rfl, rfl⟩
  | cons expression rest ih =>
    obtain ⟨events, hone, hprinted, hquiet⟩ := evaluateOne_spec limit h t expression
    obtain ⟨events', hrest, hprinted', hquiet'⟩ := ih (t.add (usualRules limit h) expression)
    refine ⟨events ++ events', ?_, ?_, ?_⟩
    · unfold evaluateAll
      rw [hone, Traced.bind_of_ok rfl, hrest]
      rfl
    · rw [Event.output_append, hprinted, hprinted', List.flatMap_cons]
    · rw [List.filterMap_append, hquiet, hquiet', List.append_nil]

theorem failures_foldl_add (expressions : List Text) (t : Tally) :
    (expressions.foldl (Tally.add (usualRules limit h)) t).failures =
      t.failures + expressions.countP lacksValue := by
  induction expressions generalizing t with
  | nil => rfl
  | cons expression rest ih =>
    rw [List.foldl_cons, ih, List.countP_cons]
    unfold Tally.add
    cases lacksValue expression with
    | false => rfl
    | true =>
      show t.failures + 1 + _ = t.failures + (_ + 1)
      omega

theorem rowsOf_append (expressions : List Text) (expression : Text) :
    rowsOf (expressions ++ [expression]) = rowsOf expressions ++
      ((value? expression).map fun result => (expression, result)).toList := by
  unfold rowsOf
  rw [List.filterMap_append]
  cases hvalue : value? expression <;> simp [hvalue]

/-- The history holds the latest expressions with a value, as many as are kept. -/
theorem history_foldl_add (expressions : List Text) :
    (expressions.foldl (Tally.add (usualRules limit h)) .initial).state.history =
      ((usualRules limit h).retain (rowsOf expressions).reverse).map fun row =>
        formatEntry .standard row.1 row.2 := by
  rw [← retain_map]
  -- from the end, since the newest entry stands first
  induction expressions using List.reverseRecOn with
  | nil => exact (retain_nil _).symm
  | append_singleton expressions expression ih =>
    rw [List.foldl_append, List.foldl_cons, List.foldl_nil, history_add, ih, rowsOf_append,
      historyBehind, success?_eq_value?]
    cases value? expression with
    | none => simp
    | some result =>
      -- what was cut off before is cut off now as well
      simp only [Option.map_some, Option.toList_some, List.reverse_append, List.reverse_singleton,
        List.singleton_append, List.map_cons]
      exact retain_cons_retain _ _ _

theorem notMem_of_mem_rowsOf {expressions : List Text} {row : Text × Text}
    (hrow : row ∈ rowsOf expressions) : '=' ∉ row.2 := by
  obtain ⟨expression, -, hrow⟩ := List.mem_filterMap.mp hrow
  obtain ⟨result, hresult, rfl⟩ := Option.map_eq_some_iff.mp hrow
  rw [← success?_eq_value? none forall_mem_none_pos] at hresult
  exact notMem_of_success? _ rfl hresult

theorem frame_of_history {rules : SessionRules} (hrules : rules.settings = .standard)
    {s : SessionState} {expressions : List Text}
    (hhistory : s.history = (rules.retain (rowsOf expressions).reverse).map fun row =>
      formatEntry .standard row.1 row.2) :
    Session.frame rules s = .ok (rules.retain (rowsOf expressions).reverse) := by
  unfold Session.frame
  rw [hrules, hhistory]
  apply historyRows_map_formatEntry
  intro row hrow
  exact notMem_of_mem_rowsOf (List.mem_reverse.mp (mem_of_mem_retain _ hrow))

end

end Program

end Calculator
