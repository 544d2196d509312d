import Calculator.Proofs.Session.Command
import Mathlib.Data.List.Induction

/-!
# The record of a session

What a session shows after a run can be read off its commands, without running them (`recordOf`):
the expression is what was typed and taken back, the result belongs to the latest calculation since
the last clear that showed something, the history to the successful ones since it was last
forgotten, and it is in view after an odd number of toggles.  `run_initial_eq_recordOf` says that
this is the state of every run of a new session.

The record grows with each command as the state changes (`obey_recordOf`).  A limit has no say in
which calculations succeed, so a limited history is the newest part of the unlimited one.
-/

namespace Calculator

/-! ### Reading the commands -/

/-- The expression behind a command. -/
def Command.edit (expression : Text) : Command → Text
  | type text => expression ++ text
  | clear => []
  | delete => expression.dropLast
  | calculate | toggle | forget => expression

/-- The expression that some commands leave. -/
def expressionOf (commands : List Command) : Text := commands.foldl Command.edit []

/-- The commands with the expression that each of them meets. -/
def trailFrom (expression : Text) : List Command → List (Text × Command)
  | [] => []
  | c :: rest => (expression, c) :: trailFrom (c.edit expression) rest

/-- The expressions that were calculated since the last command `stop`, the latest first. -/
def calculatedSince (stop : Command) (commands : List Command) : List Text :=
  ((trailFrom [] commands).reverse.takeWhile fun entry => entry.2 ≠ stop).filterMap fun entry =>
    if entry.2 = .calculate then some entry.1 else none

/-- What the latest calculation since the last clear showed, of those that showed something. -/
def resultOf (rules : SessionRules) (commands : List Command) : Text :=
  ((calculatedSince .clear commands).findSome? (shown? rules)).getD []

/-- The expressions that were calculated with success since the history was last forgotten, with
their results, the latest first. -/
def successesOf (rules : SessionRules) (commands : List Command) : List (Text × Text) :=
  (calculatedSince .forget commands).filterMap fun expression =>
    (success? rules expression).map fun result => (expression, result)

/-- The history is in view after an odd number of toggles. -/
def visibleOf (commands : List Command) : Bool := commands.count .toggle % 2 == 1

/-- The entries of the latest successful calculations, as many as are kept. -/
def historyOf (rules : SessionRules) (commands : List Command) : List Text :=
  (rules.retain (successesOf rules commands)).map fun (expression, result) =>
    expression ++ rules.settings.separator ++ result

/-- What a session shows after some commands. -/
def recordOf (rules : SessionRules) (commands : List Command) : SessionState where
  expression := expressionOf commands
  result := resultOf rules commands
  history := historyOf rules commands
  historyVisible := visibleOf commands

/-! ### One more command -/

section

variable {stop c : Command} (rules : SessionRules) (commands : List Command)

theorem expressionOf_append (c : Command) :
    expressionOf (commands ++ [c]) = c.edit (expressionOf commands) := by
  simp [expressionOf]

theorem trailFrom_append (expression : Text) (c : Command) :
    trailFrom expression (commands ++ [c]) =
      trailFrom expression commands ++ [(commands.foldl Command.edit expression, c)] := by
  induction commands generalizing expression with
  | nil => rfl
  | cons first rest ih => simp [trailFrom, ih]

theorem calculatedSince_stop (stop : Command) : calculatedSince stop (commands ++ [stop]) = [] := by
  simp [calculatedSince, trailFrom_append]

theorem calculatedSince_calculate (h : stop ≠ .calculate) :
    calculatedSince stop (commands ++ [.calculate]) =
      expressionOf commands :: calculatedSince stop commands := by
  simp [calculatedSince, trailFrom_append, h.symm, expressionOf]

theorem calculatedSince_other (hstop : c ≠ stop) (hc : c ≠ .calculate) :
    calculatedSince stop (commands ++ [c]) = calculatedSince stop commands := by
  simp [calculatedSince, trailFrom_append, hstop, hc]

theorem resultOf_clear : resultOf rules (commands ++ [.clear]) = [] := by
  rw [resultOf, calculatedSince_stop]
  rfl

theorem resultOf_calculate :
    resultOf rules (commands ++ [.calculate]) =
      (shown? rules (expressionOf commands)).getD (resultOf rules commands) := by
  rw [resultOf, calculatedSince_calculate commands (by decide), List.findSome?_cons]
  cases shown? rules (expressionOf commands) <;> rfl

theorem resultOf_other (hclear : c ≠ .clear) (hc : c ≠ .calculate) :
    resultOf rules (commands ++ [c]) = resultOf rules commands := by
  rw [resultOf, calculatedSince_other commands hclear hc, resultOf]

theorem historyOf_forget : historyOf rules (commands ++ [.forget]) = [] := by
  rw [historyOf, successesOf, calculatedSince_stop, List.filterMap_nil, retain_nil, List.map_nil]

theorem historyOf_calculate :
    historyOf rules (commands ++ [.calculate]) =
      historyBehind rules (expressionOf commands) (historyOf rules commands) := by
  rw [historyOf, successesOf, calculatedSince_calculate commands (by decide), List.filterMap_cons,
    historyBehind]
  cases success? rules (expressionOf commands) with
  | none => rfl
  | some result =>
    show (rules.retain ((expressionOf commands, result) :: successesOf rules commands)).map _ =
      rules.retain (_ :: (rules.retain (successesOf rules commands)).map _)
    rw [← retain_map, ← retain_map, retain_cons_retain]
    rfl

theorem historyOf_other (hforget : c ≠ .forget) (hc : c ≠ .calculate) :
    historyOf rules (commands ++ [c]) = historyOf rules commands := by
  rw [historyOf, successesOf, calculatedSince_other commands hforget hc, historyOf, successesOf]

theorem visibleOf_toggle : visibleOf (commands ++ [.toggle]) = !visibleOf commands := by
  rw [visibleOf, visibleOf, List.count_append, List.count_singleton_self]
  rcases Nat.mod_two_eq_zero_or_one (commands.count .toggle) with h | h <;>
    simp [Nat.add_mod, h]

theorem visibleOf_other (h : c ≠ .toggle) : visibleOf (commands ++ [c]) = visibleOf commands := by
  simp [visibleOf, h]

end

theorem recordOf_nil (rules : SessionRules) : recordOf rules [] = .initial := by
  have hhistory : historyOf rules [] = [] := congrArg _ (retain_nil rules)
  rw [recordOf, hhistory]
  rfl

/-- The record of one more command is what that command makes of the record. -/
theorem obey_recordOf (rules : SessionRules) (commands : List Command) (c : Command) :
    Session.obey rules (recordOf rules commands) c = recordOf rules (commands ++ [c]) := by
  -- what the command changes of the record is shown, the rest is as it was
  cases c with
  | type text =>
    show SessionState.mk (expressionOf commands ++ text) (resultOf rules commands)
      (historyOf rules commands) (visibleOf commands) = _
    rw [recordOf, expressionOf_append, resultOf_other, historyOf_other, visibleOf_other] <;>
      simp [Command.edit]
  | clear =>
    show SessionState.mk [] [] (historyOf rules commands) (visibleOf commands) = _
    rw [recordOf, expressionOf_append, resultOf_clear, historyOf_other, visibleOf_other] <;>
      simp [Command.edit]
  | delete =>
    show SessionState.mk (expressionOf commands).dropLast (resultOf rules commands)
      (historyOf rules commands) (visibleOf commands) = _
    rw [recordOf, expressionOf_append, resultOf_other, historyOf_other, visibleOf_other] <;>
      simp [Command.edit]
  | calculate =>
    rw [Session.obey, Session.state_calculate]
    show SessionState.mk (expressionOf commands)
      ((shown? rules (expressionOf commands)).getD (resultOf rules commands))
      (historyBehind rules (expressionOf commands) (historyOf rules commands))
      (visibleOf commands) = _
    rw [recordOf, expressionOf_append, resultOf_calculate, historyOf_calculate,
      visibleOf_other] <;>
      simp [Command.edit]
  | toggle =>
    show SessionState.mk (expressionOf commands) (resultOf rules commands)
      (historyOf rules commands) (!visibleOf commands) = _
    rw [recordOf, expressionOf_append, resultOf_other, historyOf_other, visibleOf_toggle] <;>
      simp [Command.edit]
  | forget =>
    show SessionState.mk (expressionOf commands) (resultOf rules commands) []
      (visibleOf commands) = _
    rw [recordOf, expressionOf_append, resultOf_other, historyOf_forget, visibleOf_other] <;>
      simp [Command.edit]

theorem foldl_obey_initial (rules : SessionRules) (commands : List Command) :
    commands.foldl (Session.obey rules) .initial = recordOf rules commands := by
  induction commands using List.reverseRecOn with
  | nil => exact (recordOf_nil rules).symm
  | append_singleton commands c ih =>
    rw [List.foldl_append, ih]
    exact obey_recordOf rules commands c

/-! ### Runs -/

theorem forall_mem_none_pos : ∀ n ∈ (none : Option Nat), 0 < n := by
  intro n hn
  simp at hn

/-- The same rules without a limit. -/
def SessionRules.unlimited (rules : SessionRules) : SessionRules :=
  { rules with limit := none, limit_pos := forall_mem_none_pos }

/-- **A session shows the record of its run.**  After any steps, failed ones included, a new session
shows what its commands say; with a limit, its history is the beginning, as long as the limit, of
the one that it would have without. -/
theorem run_initial_eq_recordOf (rules : SessionRules) (steps : List Step) :
    Session.run rules .initial steps = recordOf rules (steps.filterMap Step.command?) ∧
    ∀ n ∈ rules.limit, (Session.run rules .initial steps).history =
      (Session.run rules.unlimited .initial steps).history.take n := by
  have hrun (rules : SessionRules) :
      Session.run rules .initial steps = recordOf rules (steps.filterMap Step.command?) := by
    rw [Session.run_eq_foldl, foldl_obey_initial]
  refine ⟨hrun rules, fun n hn => ?_⟩
  rw [hrun rules, hrun rules.unlimited]
  -- the same calculations succeed, and only how many of them are kept depends on the limit
  show historyOf rules _ = (historyOf rules.unlimited _).take n
  rw [historyOf, SessionRules.retain, Option.mem_def.mp hn, List.map_take]
  rfl

/-- A session that keeps two entries. -/
def keepingTwo : SessionRules := ⟨.standard, evaluate .standard, some 2, by simp⟩

/-- Three expressions with a value and, before the last of them, one without; the last character of
that is taken back.  A value that is no text is not appended. -/
def mixedSteps : List Step :=
  [.append (.text ['1']), .calculate, .append (.text ['2']), .calculate, .append .null,
    .append (.text ['.', '.']), .calculate, .delete, .press .calculate .null, .toggleHistory]

/-- The first entry has gone, the third one stands in front. -/
theorem run_initial_eq_recordOf_keepingTwo :
    2 ∈ keepingTwo.limit ∧
    Session.run keepingTwo .initial mixedSteps =
      ⟨"12.".toList, "12".toList, ["12. = 12".toList, "12 = 12".toList], true⟩ ∧
    (Session.run keepingTwo.unlimited .initial mixedSteps).history =
      ["12. = 12".toList, "12 = 12".toList, "1 = 1".toList] ∧
    (Session.run keepingTwo .initial mixedSteps).history =
      ["12. = 12".toList, "12 = 12".toList, "1 = 1".toList].take 2 := by
  have hlimit : 2 ∈ keepingTwo.limit := rfl
  obtain ⟨hrecord, htake⟩ := run_initial_eq_recordOf keepingTwo mixedSteps
  have hall : (Session.run keepingTwo.unlimited .initial mixedSteps).history =
      ["12. = 12".toList, "12 = 12".toList, "1 = 1".toList] := by
    rw [(run_initial_eq_recordOf keepingTwo.unlimited mixedSteps).1]
    decide +kernel
  refine ⟨hlimit, ?_, hall, ?_⟩
  · rw [hrecord]
    decide +kernel
  · rw [htake 2 hlimit, hall]

end Calculator
