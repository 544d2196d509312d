import Calculator.Proofs.CommandLine.Evaluation

/-!
# Program runs on given expressions

A program run that is given expressions, by its command line or in a file, evaluates these and
nothing else (`Batch`).  It prints a line for each of them, tells how many have no value, and may
save the rest as a table (`run_batch`).  If there is no session to evaluate them in, or no file
where one was announced, it does nothing at all.
-/

namespace Calculator.Program

/-- The expressions in the input file of a command line, if it names one. -/
def fileExpressions (a : Arguments) (files : Files) : Except Failure (List Text) :=
  match a.inputPath with
  | none | some [] => .ok []
  | some path => files.read path >>= Script.read

/-- A command line gives some expressions, its own and then those of its input file, and allows the
history a number of entries or any number. -/
structure Batch (a : Arguments) (files : Files) (limit : Option ℤ) (expressions : List Text) :
    Prop where
  /-- There is a level to show notes by. -/
  level : ∃ level, a.logLevel = .ok level
  /-- The limit of the history is understood. -/
  limit_eq : a.historyLimit = .ok limit
  /-- A limit leaves room for one entry. -/
  limit_pos : ∀ n ∈ limit, 0 < n
  /-- The input file is there and reads as text. -/
  more : ∃ more, fileExpressions a files = .ok more ∧ expressions = a.expressions ++ more
  /-- There is at least one expression. -/
  ne_nil : expressions ≠ []

/-- The newest of some rows, as many as a limit allows. -/
def newest (limit : Option ℤ) (rows : List (Text × Text)) : List (Text × Text) :=
  match limit with
  | none => rows
  | some n => rows.take n.toNat

/-- The exit status tells whether any expression has no value. -/
def statusOf (expressions : List Text) : ℕ := if expressions.any lacksValue then 1 else 0

/-- Where the history is saved. -/
def savedPath (a : Arguments) : Text :=
  if a.historyPath.isEmpty then Arguments.standardHistoryPath else a.historyPath

/-! ### Before the first expression -/

theorem limit_toNat_pos {limit : Option ℤ} (h : ∀ n ∈ limit, 0 < n) :
    ∀ n ∈ limit.map Int.toNat, 0 < n := by
  intro n hn
  obtain ⟨m, hm, rfl⟩ := Option.mem_map.mp hn
  have := h m hm
  omega

theorem rules_eq {a : Arguments} {limit : Option ℤ} (hlevel : ∃ level, a.logLevel = .ok level)
    (hlimit : a.historyLimit = .ok limit) (hpos : ∀ n ∈ limit, 0 < n) :
    rules .standard a = .ok (usualRules (limit.map Int.toNat) (limit_toNat_pos hpos)) := by
  obtain ⟨level, hlevel⟩ := hlevel
  have hcreate : rules .standard a = SessionRules.create .standard limit (evaluate .standard) := by
    unfold rules
    rw [hlevel, hlimit]
    rfl
  rw [hcreate]
  cases limit with
  | none => rfl
  | some n =>
    have hn : ¬n ≤ 0 := Int.not_le.mpr (hpos n rfl)
    exact dif_neg hn

theorem retain_usualRules {limit : Option ℤ} (hpos : ∀ n ∈ limit, 0 < n)
    (rows : List (Text × Text)) :
    (usualRules (limit.map Int.toNat) (limit_toNat_pos hpos)).retain rows = newest limit rows := by
  cases limit <;> rfl

/-- The note on an input file that was read. -/
def fileNotes (a : Arguments) (more : List Text) : List Note :=
  match a.inputPath with
  | none | some [] => []
  | some path => [.loadedExpressions more.length path]

/-- Reading the expressions prints nothing, and without the file there are none at all. -/
theorem expressions_eq (a : Arguments) (files : Files) :
    expressions a files =
      match fileExpressions a files with
      | .ok more => ⟨(fileNotes a more).map .noted, .ok (a.expressions ++ more)⟩
      | .error failure => ⟨[], .error failure⟩ := by
  unfold expressions fileExpressions fileNotes
  rcases a.inputPath with _ | ⟨_ | ⟨c, rest⟩⟩
  · dsimp only
    rw [List.append_nil]
    rfl
  · dsimp only
    rw [List.append_nil]
    rfl
  · dsimp only
    cases files.read (c :: rest) >>= Script.read <;> rfl

theorem isQuiet_of_mem_fileNotes (a : Arguments) (more : List Text) :
    ∀ n ∈ fileNotes a more, n.IsQuiet := by
  unfold fileNotes
  split
  · simp
  · simp
  · intro n hn
    obtain rfl := List.mem_singleton.mp hn
    rfl

/-! ### Behind the last expression -/

theorem finish_spec {rules : SessionRules} {t : Tally} {rows : List (Text × Text)}
    (hrows : Session.frame rules t.state = .ok rows) (a : Arguments) (files : Files) :
    ∃ notes : List Note, finish rules a files t =
        ⟨notes.map .noted,
          if a.saveHistory then
            (files.write (savedPath a)).map fun _ =>
              ⟨if t.failures = 0 then 0 else 1, some (savedPath a, Csv.table rows)⟩
          else .ok ⟨if t.failures = 0 then 0 else 1, none⟩⟩ ∧
      (notes.map Event.noted).filterMap Event.failedCount? =
        if t.failures = 0 then [] else [t.failures] := by
  unfold finish
  rw [hrows]
  dsimp only
  rw [← savedPath]
  -- the failures are told of first, and then the saving as far as it gets
  cases hfailures : t.failures with
  | zero =>
    cases hsave : a.saveHistory with
    | false => exact ⟨[], rfl, rfl⟩
    | true =>
      cases hwrite : files.write (savedPath a) with
      | error failure => exact ⟨[.savingHistory (savedPath a)], rfl, rfl⟩
      | ok =>
        exact ⟨[.savingHistory (savedPath a), .savedHistory rows.length (savedPath a)], rfl, rfl⟩
  | succ n =>
    cases hsave : a.saveHistory with
    | false => exact ⟨[.failedExpressions (n + 1)], rfl, rfl⟩
    | true =>
      cases hwrite : files.write (savedPath a) with
      | error failure =>
        exact ⟨[.failedExpressions (n + 1), .savingHistory (savedPath a)], rfl, rfl⟩
      | ok =>
        exact ⟨[.failedExpressions (n + 1), .savingHistory (savedPath a),
          .savedHistory rows.length (savedPath a)], rfl, rfl⟩

/-! ### The whole run -/

theorem statusOf_eq (expressions : List Text) :
    statusOf expressions = if expressions.countP lacksValue = 0 then 0 else 1 := by
  have hany : expressions.any lacksValue = true ↔ ¬expressions.countP lacksValue = 0 := by
    rw [List.any_eq_true, List.countP_eq_zero]
    push Not
    rfl
  unfold statusOf
  by_cases h : expressions.countP lacksValue = 0
  · rw [if_pos h, if_neg (hany.not.mpr (not_not.mpr h))]
  · rw [if_neg h, if_pos (hany.mpr h)]

section

variable {a : Arguments} {files : Files} {limit : Option ℤ} {listed : List Text}

/-- The session behind all expressions: its history holds the newest of those with a value. -/
theorem tally_of_batch (hbatch : Batch a files limit listed) :
    ∃ r t, rules .standard a = .ok r ∧
      (∃ events, evaluateAll r .initial listed = ⟨events, .ok t⟩ ∧
        Event.output events = listed.flatMap resultLine ∧
        events.filterMap Event.failedCount? = []) ∧
      t.failures = listed.countP lacksValue ∧
      t.state.history = (newest limit (rowsOf listed).reverse).map (fun row =>
        formatEntry .standard row.1 row.2) ∧
      Session.frame r t.state = .ok (newest limit (rowsOf listed).reverse) := by
  have hpos := limit_toNat_pos hbatch.limit_pos
  have hhistory := history_foldl_add (limit.map Int.toNat) hpos listed
  have hframe := frame_of_history rfl hhistory
  rw [retain_usualRules hbatch.limit_pos] at hhistory hframe
  refine ⟨_, _, rules_eq hbatch.level hbatch.limit_eq hbatch.limit_pos,
    evaluateAll_spec (limit.map Int.toNat) hpos listed .initial, ?_, hhistory, hframe⟩
  rw [failures_foldl_add]
  exact Nat.zero_add _

/-- What a program run prints. -/
def printed (a : Arguments) (files : Files) (input : Text) : Text :=
  Event.output (run .standard a files input).trace

theorem run_of_batch (hbatch : Batch a files limit listed) (input : Text) :
    ∃ events, run .standard a files input =
        ⟨events,
          if a.saveHistory then
            (files.write (savedPath a)).map fun _ =>
              ⟨statusOf listed,
                some (savedPath a, Csv.table (newest limit (rowsOf listed).reverse))⟩
          else .ok ⟨statusOf listed, none⟩⟩ ∧
      Event.output events = listed.flatMap resultLine ∧
      events.filterMap Event.failedCount? =
        if listed.countP lacksValue = 0 then [] else [listed.countP lacksValue] := by
  obtain ⟨r, t, hrules, ⟨events, hall, hprinted, hquiet⟩, hfailures, -, hframe⟩ :=
    tally_of_batch hbatch
  obtain ⟨more, hmore, rfl⟩ := hbatch.more
  have hexpressions := expressions_eq a files
  rw [hmore] at hexpressions
  have hnotes := Event.filterMap_map_noted (isQuiet_of_mem_fileNotes a more)
  obtain ⟨notes, hfinish, hcount⟩ := finish_spec hframe a files
  rw [hfailures] at hfinish hcount
  rw [← statusOf_eq] at hfinish
  have hne : (a.expressions ++ more).isEmpty = false := by simpa using hbatch.ne_nil
  -- before and behind the evaluations there are only notes
  refine ⟨(fileNotes a more).map .noted ++ (events ++ notes.map .noted), ?_, ?_, ?_⟩
  · unfold run
    rw [hrules, Traced.ofExcept_ok, pure_bind, hexpressions, Traced.bind_of_ok rfl]
    dsimp only
    rw [hne, if_neg (by decide), hall, Traced.bind_of_ok rfl]
    dsimp only
    rw [hfinish]
  · rw [Event.output_append, Event.output_append, Event.output_map_noted, Event.output_map_noted,
      List.append_nil, List.nil_append, hprinted]
  · rw [List.filterMap_append, List.filterMap_append, hnotes, hquiet,
      hcount, List.nil_append, List.nil_append]

theorem printed_of_batch (hbatch : Batch a files limit listed) (input : Text) :
    printed a files input = listed.flatMap resultLine := by
  obtain ⟨events, hrun, hprinted, -⟩ := run_of_batch hbatch input
  unfold printed
  rw [hrun]
  exact hprinted

end

/-- **A program run on given expressions** prints a line for each of them that has a result, in
order.  The line depends on nothing but the expression, so what is printed of two lists of
expressions is what is printed of one and then of the other.  The exit status is one if a result is
an error, and one warning tells how many are; the history holds the newest of the other results.
Without a session, or without the input file, the run does nothing but fail. -/
theorem run_batch (a : Arguments) (files : Files) (input : Text) :
    (∀ failure, rules .standard a = .error failure →
      run .standard a files input = ⟨[], .error failure⟩) ∧
    (∀ r failure, rules .standard a = .ok r → fileExpressions a files = .error failure →
      run .standard a files input = ⟨[], .error failure⟩) ∧
    (∀ expression, expression.isAllBlank = false →
      (∃ x result, (evaluate .standard expression).outcome = .ok x ∧
        displayResult .standard x = .ok result ∧ result ≠ Settings.standard.errorText ∧
        result? expression = some result) ∨
      ∃ failure, (evaluate .standard expression).outcome = .error failure ∧
        failure.isEvaluationError = true ∧
        result? expression = some Settings.standard.errorText) ∧
    ∀ limit listed, Batch a files limit listed →
      printed a files input = listed.flatMap resultLine ∧
      (∀ a' files' input' limit' more a'' files'' input'' limit'', Batch a' files' limit' more →
        Batch a'' files'' limit'' (listed ++ more) →
        printed a'' files'' input'' = printed a files input ++ printed a' files' input') ∧
      (run .standard a files input).trace.filterMap Event.failedCount? =
        (if listed.countP lacksValue = 0 then [] else [listed.countP lacksValue]) ∧
      (run .standard a files input).outcome =
        (if a.saveHistory then
          (files.write (savedPath a)).map fun _ =>
            ⟨statusOf listed, some (savedPath a, Csv.table (newest limit (rowsOf listed).reverse))⟩
        else .ok ⟨statusOf listed, none⟩) ∧
      ∃ r t, rules .standard a = .ok r ∧ (evaluateAll r .initial listed).outcome = .ok t ∧
        t.state.history = (newest limit (rowsOf listed).reverse).map fun row =>
          formatEntry .standard row.1 row.2 := by
  refine ⟨?_, ?_, fun expression hblank => result?_spec hblank, ?_⟩
  · intro failure hrules
    unfold run
    rw [hrules, Traced.ofExcept_error, Traced.fail_bind]
    rfl
  · intro r failure hrules hmore
    unfold run
    rw [hrules, Traced.ofExcept_ok, pure_bind, expressions_eq, hmore]
    rfl
  · intro limit listed hbatch
    obtain ⟨events, hrun, -, hcount⟩ := run_of_batch hbatch input
    obtain ⟨r, t, hrules, ⟨events', hall, -, -⟩, -, hhistory, -⟩ := tally_of_batch hbatch
    refine ⟨printed_of_batch hbatch input, ?_, by rw [hrun]; exact hcount, by rw [hrun],
      r, t, hrules, by rw [hall], hhistory⟩
    intro a' files' input' limit' more a'' files'' input'' limit'' hmore hboth
    rw [printed_of_batch hboth, printed_of_batch hbatch, printed_of_batch hmore,
      List.flatMap_append]

/-- A negative number, a blank expression and, from a file, a number with two points, with room for
one entry of the history; then a run without room for any, and one without its file. -/
theorem run_batch_two_points :
    printed ⟨["-2".toList, " ".toList], some "more".toList, true, [], .ok (some 1), .ok .warning⟩
        (Directory.files [(["more".toList], [0x31, 0x2E, 0x32, 0x2E, 0x33])]) [] =
      "-2 = -2\n1.2.3 = Error\n".toList ∧
    (run .standard
        ⟨["-2".toList, " ".toList], some "more".toList, true, [], .ok (some 1), .ok .warning⟩
        (Directory.files [(["more".toList], [0x31, 0x2E, 0x32, 0x2E, 0x33])]) []).outcome =
      .ok ⟨1, some ("calc_history.csv".toList, "expression,result\n-2,-2\n".toList)⟩ ∧
    run .standard ⟨["-2".toList], none, true, [], .ok (some 0), .ok .warning⟩
        (Directory.files []) [] = ⟨[], .error (.limitNotPositive 0)⟩ ∧
    run .standard ⟨["-2".toList], some "more".toList, true, [], .ok (some 1), .ok .warning⟩
        (Directory.files []) [] = ⟨[], .error (.missingFile "more".toList)⟩ := by
  set a : Arguments :=
    ⟨["-2".toList, " ".toList], some "more".toList, true, [], .ok (some 1), .ok .warning⟩
  set files := Directory.files [(["more".toList], [0x31, 0x2E, 0x32, 0x2E, 0x33])]
  have hbatch : Batch a files (some 1) ["-2".toList, " ".toList, "1.2.3".toList] :=
    ⟨⟨.warning, rfl⟩, rfl, by simp, ⟨["1.2.3".toList], by decide +kernel⟩, by simp⟩
  obtain ⟨hprinted, -, -, houtcome, -⟩ := (run_batch a files []).2.2.2 _ _ hbatch
  have hstatus : statusOf ["-2".toList, " ".toList, "1.2.3".toList] = 1 := by decide +kernel
  have htable : Csv.table (newest (some 1)
      (rowsOf ["-2".toList, " ".toList, "1.2.3".toList]).reverse) =
      "expression,result\n-2,-2\n".toList := by decide +kernel
  have hwrite : files.write (savedPath a) = .ok () := by decide +kernel
  refine ⟨?_, ?_, (run_batch _ _ _).1 _ rfl, (run_batch _ _ _).2.1 _ _ rfl (by decide +kernel)⟩
  · rw [hprinted]
    decide +kernel
  · rw [houtcome, hstatus, htable, hwrite]
    rfl

end Calculator.Program
