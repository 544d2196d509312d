import Calculator.Proofs.Display.Characters
import Calculator.Proofs.History.Entry
import Calculator.Proofs.Session.Record

/-!
# The history as rows

A history entry is one text, and it is taken apart at its last separator.  An expression may hold
the separator any number of times, and may end with a part of it.  A result cannot: it holds no
equals sign, so no separator starts behind the one that was put there
(`eq_zero_of_occursAt_separator`).  Every entry is therefore taken apart into what it was put
together from (`parseEntry_formatEntry`), and the rows of a history are the calculations that it
keeps (`frame_run_initial`).
-/

namespace Calculator

/-! ### Entries -/

/-- Behind a separator that was put in front of it, a text without an equals sign completes no
second one. -/
theorem eq_zero_of_occursAt_separator {result : Text} (h : '=' ∉ result) {index : ℕ}
    (hindex : Text.OccursAt Settings.standard.separator
      (Settings.standard.separator ++ result) index) : index = 0 := by
  obtain ⟨before, behind, rfl, heq⟩ := hindex
  have heq : ' ' :: '=' :: ' ' :: result = before ++ ' ' :: '=' :: ' ' :: behind := by
    simpa [Settings.standard] using heq
  -- one that starts further on has its equals sign behind the first blank, or in the result
  match before, heq with
  | [], _ => rfl
  | [_], heq =>
    have hsecond : '=' = ' ' := (List.cons.inj (List.cons.inj heq).2).1
    exact absurd hsecond (by decide)
  | _ :: _ :: before, heq =>
    have hbehind : ' ' :: result = before ++ ' ' :: '=' :: ' ' :: behind :=
      (List.cons.inj (List.cons.inj heq).2).2
    have hmem : '=' ∈ ' ' :: result := by
      rw [hbehind]
      simp
    exact absurd hmem (by simp [h])

theorem parseEntry_formatEntry {expression result : Text} (h : '=' ∉ result) :
    parseEntry .standard (formatEntry .standard expression result) = .ok (expression, result) := by
  have hne : Settings.standard.separator ≠ [] := by decide
  exact (parseEntry_formatEntry_eq_iff hne expression result).mpr fun _ =>
    eq_zero_of_occursAt_separator h

theorem historyRows_map_formatEntry {rows : List (Text × Text)} (h : ∀ row ∈ rows, '=' ∉ row.2) :
    historyRows .standard (rows.map fun row => formatEntry .standard row.1 row.2) = .ok rows := by
  induction rows with
  | nil => rfl
  | cons row rest ih =>
    obtain ⟨hrow, hrest⟩ := List.forall_mem_cons.mp h
    have hrest : (rest.map fun row => formatEntry .standard row.1 row.2).mapM
      (parseEntry .standard) = .ok rest := ih hrest
    unfold historyRows
    rw [List.map_cons, List.mapM_cons, parseEntry_formatEntry hrow, hrest]
    rfl

/-! ### Calculations -/

section

variable (rules : SessionRules)

theorem exists_displayResult_of_success? {expression result : Text}
    (h : success? rules expression = some result) :
    ∃ x, (rules.evaluator expression).outcome = .ok x ∧
      displayResult rules.settings x = .ok result := by
  unfold success? at h
  split at h
  · exact absurd h (by simp)
  · split at h
    · rename_i x hx
      refine ⟨x, hx, ?_⟩
      cases hdisplay : displayResult rules.settings x with
      | error failure => simp [hdisplay, Except.toOption] at h
      | ok text =>
        rw [hdisplay] at h
        exact congrArg Except.ok (Option.some.inj h)
    · exact absurd h (by simp)

/-- What counts as a success is what a calculation gives back for an expression with a value. -/
theorem success?_eq_some_iff (s : SessionState) (result : Text) :
    success? rules s.expression = some result ↔
      (∃ x, (rules.evaluator s.expression).outcome = .ok x) ∧
        (Session.calculate rules s).ending.outcome = .ok (some result) := by
  unfold success? Session.calculate
  split
  · simp
  · cases hvalue : (rules.evaluator s.expression).outcome with
    | error failure => simp [hvalue]
    | ok x =>
      cases hdisplay : displayResult rules.settings x <;> simp [hvalue, hdisplay, Except.toOption]

/-- No equals sign stands in the result of a success. -/
theorem notMem_of_success? (hrules : rules.settings = .standard) {expression result : Text}
    (h : success? rules expression = some result) : '=' ∉ result := by
  obtain ⟨x, -, hdisplay⟩ := exists_displayResult_of_success? rules h
  rw [hrules] at hdisplay
  exact notMem_displayResult hdisplay (by decide) (by decide)

end

/-- **The rows of a history are the calculations that it keeps.**  After any steps of a new session
they are, the newest first, the expressions that were calculated with success since the history was
last forgotten, as they stood, each with the text that the calculation gave back, and as many of
them as the limit allows. -/
theorem frame_run_initial (rules : SessionRules) (hrules : rules.settings = .standard)
    (steps : List Step) :
    Session.frame rules (Session.run rules .initial steps) =
      .ok (rules.retain (successesOf rules (steps.filterMap Step.command?))) ∧
    (Session.run rules .initial steps).expression = expressionOf (steps.filterMap Step.command?) ∧
    ∀ (s : SessionState) (result : Text), success? rules s.expression = some result ↔
      (∃ x, (rules.evaluator s.expression).outcome = .ok x) ∧
        (Session.calculate rules s).ending.outcome = .ok (some result) := by
  set commands := steps.filterMap Step.command? with hcommands
  have hrun : Session.run rules .initial steps = recordOf rules commands := by
    rw [Session.run_eq_foldl, foldl_obey_initial]
  refine ⟨?_, by rw [hrun]; rfl, success?_eq_some_iff rules⟩
  have hhistory : (recordOf rules commands).history =
      (rules.retain (successesOf rules commands)).map fun row =>
        formatEntry .standard row.1 row.2 := by
    rw [← hrules]
    rfl
  unfold Session.frame
  rw [hrun, hhistory, hrules]
  apply historyRows_map_formatEntry
  intro row hrow
  obtain ⟨expression, -, hexpression⟩ := List.mem_filterMap.mp (mem_of_mem_retain rules hrow)
  obtain ⟨result, hresult, rfl⟩ := Option.map_eq_some_iff.mp hexpression
  exact notMem_of_success? rules hrules hresult

/-- Two expressions that hold the separator, one of which ends with a part of it and a line feed. -/
theorem frame_run_initial_separators :
    Session.frame ⟨.standard, evaluate .standard, none, forall_mem_none_pos⟩
      (Session.run ⟨.standard, evaluate .standard, none, forall_mem_none_pos⟩ .initial
        [.append (.text " = 1".toList), .calculate, .append (.text " = 2 =\n".toList),
          .calculate]) =
      .ok [(" = 1 = 2 =\n".toList, "2".toList), (" = 1".toList, "1".toList)] := by
  have h := (frame_run_initial ⟨.standard, evaluate .standard, none, forall_mem_none_pos⟩ rfl
    [.append (.text " = 1".toList), .calculate, .append (.text " = 2 =\n".toList),
      .calculate]).1
  rw [h]
  decide +kernel

end Calculator
