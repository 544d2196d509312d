import Calculator.Proofs.CommandLine.Batch
import Calculator.Proofs.Text.Lines
import Mathlib.Data.List.DropRight

/-!
# Dialogues

A program run without any expressions is a dialogue: it answers one line after the other until one
of them ends it.  The two other commands show the history and forget it, and every other line is an
expression, which is evaluated as in a run that is given expressions (`answerLines_spec`).

So a dialogue can be compared with such runs.  It counts the failures of all its expressions
(`failures_foldl_hear`), and its history is at any time that of a new session in which only the
expressions since the last `:clear` were evaluated (`history_foldl_hear`).  The line that ends it is
the last one that it looks at (`answerLines_append`).
-/

namespace Calculator.Program

/-! ### Lines of a user -/

/-- The lines that a dialogue answers, without blanks around them: those before the line that ends
it, or all of them. -/
def heard (lines : List Text) : List Text := (lines.map Text.strip).takeWhile (· ≠ quitCommand)

/-- The line is neither blank nor a command. -/
def isTyped (line : Text) : Bool :=
  !line.isEmpty && line ≠ historyCommand && line ≠ clearCommand

/-- The expressions among some lines. -/
def typed (lines : List Text) : List Text := lines.filter isTyped

/-- The expressions among some lines since the history was last forgotten. -/
def typedSinceClear (lines : List Text) : List Text :=
  typed (lines.rtakeWhile (· ≠ clearCommand))

theorem typed_append (lines : List Text) (line : Text) :
    typed (lines ++ [line]) = if isTyped line then typed lines ++ [line] else typed lines := by
  unfold typed
  rw [List.filter_append, List.filter_singleton]
  cases isTyped line <;> simp

theorem typedSinceClear_clear (lines : List Text) :
    typedSinceClear (lines ++ [clearCommand]) = [] := by
  unfold typedSinceClear
  rw [List.rtakeWhile_concat_neg]
  · rfl
  · simp

theorem typedSinceClear_append (lines : List Text) {line : Text} (h : line ≠ clearCommand) :
    typedSinceClear (lines ++ [line]) =
      if isTyped line then typedSinceClear lines ++ [line] else typedSinceClear lines := by
  unfold typedSinceClear
  rw [List.rtakeWhile_concat_pos _ _ _ (by simpa using h), typed_append]

/-! ### One line -/

/-- The tally behind one more line that does not end the dialogue. -/
def Tally.hear (rules : SessionRules) (t : Tally) (line : Text) : Tally :=
  if isTyped line then t.add rules line
  else if line = clearCommand then { t with state := Session.clearHistory t.state }
  else t

/-- The text that answers one line, for a history. -/
def answerText (history : List Text) (line : Text) : Text :=
  if isTyped line then resultLine line
  else if line = historyCommand then history.flatMap (· ++ ['\n'])
  else []

section

variable (limit : Option ℕ) (h : ∀ n ∈ limit, 0 < n)

theorem output_recordAll_entries (history : List Text) :
    Event.output (history.map fun entry => Event.printed (entry ++ ['\n'])) =
      history.flatMap (· ++ ['\n']) := by
  rw [Event.output, List.flatMap_map]

theorem answerLine_spec (t : Tally) {line : Text} (hline : line.strip ≠ quitCommand) :
    ∃ events, answerLine (usualRules limit h) t line =
        ⟨events, .ok (some (t.hear (usualRules limit h) line.strip))⟩ ∧
      Event.output events = answerText t.state.history line.strip ∧
      events.filterMap Event.failedCount? = [] := by
  unfold answerLine
  dsimp only
  generalize line.strip = line at hline ⊢
  by_cases hempty : line = []
  · subst hempty
    exact ⟨[], rfl, rfl, rfl⟩
  rw [if_neg (by simpa using hempty), if_neg hline]
  by_cases hhistory : line = historyCommand
  · subst hhistory
    rw [if_pos rfl]
    refine ⟨t.state.history.map (fun entry => .printed (entry ++ ['\n'])) ++ [], rfl, ?_, ?_⟩
    · rw [List.append_nil]
      exact output_recordAll_entries t.state.history
    · rw [List.append_nil, List.filterMap_map, List.filterMap_eq_nil_iff]
      intro entry _
      rfl
  by_cases hclear : line = clearCommand
  · subst hclear
    exact ⟨[], rfl, rfl, rfl⟩
  have htyped : isTyped line = true := by simp [isTyped, hempty, hhistory, hclear]
  obtain ⟨events, hone, hprinted, hquiet⟩ := evaluateOne_spec limit h t line
  refine ⟨events ++ [], ?_, ?_, ?_⟩
  · rw [if_neg hhistory, if_neg hclear, hone, Tally.hear, if_pos htyped]
    rfl
  · rw [List.append_nil, hprinted, answerText, if_pos htyped]
  · rw [List.append_nil, hquiet]

theorem answerLine_quit (rules : SessionRules) (t : Tally) {line : Text}
    (hline : line.strip = quitCommand) : answerLine rules t line = pure none := by
  unfold answerLine
  dsimp only
  rw [hline]
  rfl

/-! ### All lines -/

/-- What a dialogue shows: a prompt and an answer for every line, and a prompt for the line that
ends it.  If no line does, the end of the input does, and is shown as the end of a line. -/
def transcript (lines : List Text) (history : List Text → List Text) : Text :=
  ((heard lines).mapIdx fun i line =>
    prompt ++ answerText (history ((heard lines).take i)) line).flatten ++ prompt ++
    if quitCommand ∈ lines.map Text.strip then [] else ['\n']

theorem heard_quit {line : Text} (hline : line.strip = quitCommand) (rest : List Text) :
    heard (line :: rest) = [] := by
  simp [heard, hline]

theorem heard_cons {line : Text} (hline : line.strip ≠ quitCommand) (rest : List Text) :
    heard (line :: rest) = line.strip :: heard rest := by
  simp [heard, hline]

theorem transcript_quit {line : Text} (hline : line.strip = quitCommand) (rest : List Text)
    (history : List Text → List Text) : transcript (line :: rest) history = prompt := by
  simp [transcript, heard_quit hline, hline]

theorem transcript_cons {line : Text} (hline : line.strip ≠ quitCommand) (rest : List Text)
    (history : List Text → List Text) :
    transcript (line :: rest) history = prompt ++ answerText (history []) line.strip ++
      transcript rest fun before => history (line.strip :: before) := by
  simp [transcript, heard_cons hline, hline.symm]

/-- A dialogue shows its transcript, where the history is at any time the one that the lines before
have left. -/
theorem answerLines_spec (lines : List Text) (t : Tally) :
    ∃ events, answerLines (usualRules limit h) t lines =
        ⟨events, .ok ((heard lines).foldl (Tally.hear (usualRules limit h)) t)⟩ ∧
      Event.output events = transcript lines (fun before =>
        (before.foldl (Tally.hear (usualRules limit h)) t).state.history) ∧
      events.filterMap Event.failedCount? = [] := by
  induction lines generalizing t with
  | nil => exact ⟨_, rfl, rfl, rfl⟩
  | cons line rest ih =>
    by_cases hline : line.strip = quitCommand
    · refine ⟨[.printed prompt], ?_, ?_, rfl⟩
      · rw [answerLines, answerLine_quit _ t hline, heard_quit hline]
        rfl
      · rw [transcript_quit hline]
        rfl
    · obtain ⟨events, hone, hshown, hquiet⟩ := answerLine_spec limit h t hline
      obtain ⟨events', hrest, hshown', hquiet'⟩ :=
        ih (t.hear (usualRules limit h) line.strip)
      refine ⟨[.printed prompt] ++ (events ++ events'), ?_, ?_, ?_⟩
      · rw [answerLines, hone, heard_cons hline, List.foldl_cons, print, Traced.bind_of_ok rfl,
          Traced.bind_of_ok rfl]
        dsimp only
        rw [hrest]
        rfl
      · rw [Event.output_append, Event.output_append, hshown, hshown', transcript_cons hline,
          List.append_assoc]
        rfl
      · rw [List.filterMap_append, List.filterMap_append, hquiet, hquiet']
        rfl

/-- Behind the line that ends a dialogue nothing is looked at. -/
theorem answerLines_append (rules : SessionRules) {lines : List Text}
    (hquit : quitCommand ∈ lines.map Text.strip) (more : List Text) (t : Tally) :
    answerLines rules t (lines ++ more) = answerLines rules t lines := by
  induction lines generalizing t with
  | nil => simp at hquit
  | cons line rest ih =>
    rw [List.cons_append, answerLines, answerLines]
    by_cases hline : line.strip = quitCommand
    · rw [answerLine_quit rules t hline]
      rfl
    · have hrest : quitCommand ∈ rest.map Text.strip := by
        rw [List.map_cons, List.mem_cons] at hquit
        exact hquit.resolve_left (Ne.symm hline)
      congr 1
      funext _
      congr 1
      funext next
      cases next with
      | none => rfl
      | some t => exact ih hrest t

/-! ### Compared with given expressions -/

theorem failures_foldl_hear (rules : SessionRules) (lines : List Text) (t : Tally) :
    (lines.foldl (Tally.hear rules) t).failures = t.failures + (typed lines).countP lacksValue := by
  induction lines generalizing t with
  | nil => rfl
  | cons line rest ih =>
    rw [List.foldl_cons, ih]
    unfold Tally.hear typed
    by_cases htyped : isTyped line = true
    · rw [if_pos htyped, List.filter_cons_of_pos htyped, List.countP_cons]
      show (if lacksValue line then t.failures + 1 else t.failures) + _ = _
      split_ifs <;> omega
    · rw [if_neg htyped, List.filter_cons_of_neg htyped]
      split_ifs <;> rfl

/-- The history of a dialogue is that of a new session in which only the expressions since the last
`:clear` were evaluated. -/
theorem history_foldl_hear (lines : List Text) :
    (lines.foldl (Tally.hear (usualRules limit h)) .initial).state.history =
      ((typedSinceClear lines).foldl (Tally.add (usualRules limit h)) .initial).state.history := by
  -- from the end, since the latest line decides where the history begins
  induction lines using List.reverseRecOn with
  | nil => rfl
  | append_singleton lines line ih =>
    rw [List.foldl_append, List.foldl_cons, List.foldl_nil]
    by_cases hclear : line = clearCommand
    · subst hclear
      rw [typedSinceClear_clear]
      rfl
    rw [typedSinceClear_append lines hclear, Tally.hear]
    by_cases htyped : isTyped line = true
    · rw [if_pos htyped, if_pos htyped, List.foldl_append, List.foldl_cons, List.foldl_nil,
        history_add, history_add, ih]
    · rw [if_neg htyped, if_neg htyped, if_neg hclear, ih]

end

/-! ### The whole run -/

/-- A command line gives no expressions at all, and allows the history a number of entries or any
number. -/
structure Dialogue (a : Arguments) (files : Files) (limit : Option ℤ) : Prop where
  /-- There is a level to show notes by. -/
  level : ∃ level, a.logLevel = .ok level
  /-- The limit of the history is understood. -/
  limit_eq : a.historyLimit = .ok limit
  /-- A limit leaves room for one entry. -/
  limit_pos : ∀ n ∈ limit, 0 < n
  /-- The command line itself has no expressions. -/
  own : a.expressions = []
  /-- Neither has its input file, if it names one. -/
  more : fileExpressions a files = .ok []

section

variable {a : Arguments} {files : Files} {limit : Option ℤ}

/-- The rules of a session that allows the history a number of entries or any number. -/
def limitedRules (limit : Option ℤ) (h : ∀ n ∈ limit, 0 < n) : SessionRules :=
  usualRules (limit.map Int.toNat) (limit_toNat_pos h)

/-- A new session in which some expressions were evaluated. -/
def sessionOf (rules : SessionRules) (expressions : List Text) : Tally :=
  expressions.foldl (Tally.add rules) .initial

theorem sessionOf_spec (h : ∀ n ∈ limit, 0 < n) (expressions : List Text) :
    ∃ events, evaluateAll (limitedRules limit h) .initial expressions =
        ⟨events, .ok (sessionOf (limitedRules limit h) expressions)⟩ ∧
      Event.output events = expressions.flatMap resultLine ∧
      (sessionOf (limitedRules limit h) expressions).failures = expressions.countP lacksValue ∧
      (sessionOf (limitedRules limit h) expressions).state.history =
        (newest limit (rowsOf expressions).reverse).map (fun row =>
          formatEntry .standard row.1 row.2) ∧
      Session.frame (limitedRules limit h) (sessionOf (limitedRules limit h) expressions).state =
        .ok (newest limit (rowsOf expressions).reverse) := by
  obtain ⟨events, hall, hprinted, -⟩ :=
    evaluateAll_spec (limit.map Int.toNat) (limit_toNat_pos h) expressions .initial
  have hhistory := history_foldl_add (limit.map Int.toNat) (limit_toNat_pos h) expressions
  have hframe := frame_of_history rfl hhistory
  rw [retain_usualRules h] at hhistory hframe
  refine ⟨events, hall, hprinted, ?_, hhistory, hframe⟩
  unfold sessionOf
  rw [limitedRules, failures_foldl_add]
  exact Nat.zero_add _

/-- A dialogue leaves the history of the expressions since the last `:clear`, and the failures of
all expressions. -/
theorem answerLines_initial (h : ∀ n ∈ limit, 0 < n) (lines : List Text) :
    ∃ events t, answerLines (limitedRules limit h) .initial lines = ⟨events, .ok t⟩ ∧
      Event.output events = transcript lines (fun before =>
        (sessionOf (limitedRules limit h) (typedSinceClear before)).state.history) ∧
      events.filterMap Event.failedCount? = [] ∧
      t.failures = (sessionOf (limitedRules limit h) (typed (heard lines))).failures ∧
      t.state.history =
        (sessionOf (limitedRules limit h) (typedSinceClear (heard lines))).state.history := by
  obtain ⟨events, hall, hshown, hquiet⟩ :=
    answerLines_spec (limit.map Int.toNat) (limit_toNat_pos h) lines .initial
  refine ⟨events, _, hall, ?_, hquiet, ?_, history_foldl_hear _ (limit_toNat_pos h) _⟩
  · rw [hshown]
    congr 1
    funext before
    exact history_foldl_hear _ (limit_toNat_pos h) before
  · obtain ⟨-, -, -, hfailures, -⟩ := sessionOf_spec h (typed (heard lines))
    rw [hfailures, failures_foldl_hear]
    exact Nat.zero_add _

theorem run_eq_of_dialogue (hdialogue : Dialogue a files limit) (input : Text) :
    run .standard a files input = (do
      noting ⟨fileNotes a [], .ok ()⟩
      printLine greeting
      let t ← answerLines (limitedRules limit hdialogue.limit_pos) .initial input.lines
      finish (limitedRules limit hdialogue.limit_pos) a files t) := by
  have hexpressions := expressions_eq a files
  rw [hdialogue.more, hdialogue.own] at hexpressions
  unfold run
  rw [rules_eq hdialogue.level hdialogue.limit_eq hdialogue.limit_pos, Traced.ofExcept_ok,
    pure_bind, hexpressions, Traced.bind_of_ok rfl, noting, Traced.bind_of_ok rfl]
  dsimp only
  rw [List.append_nil, List.isEmpty_nil, if_pos rfl]
  rfl

end

end Calculator.Program
