import Calculator.Proofs.History.Frame

/-!
# Reading comma-separated values

`Csv.read` reads a table character by character.  A record ends with a line feed and its fields with
commas, both outside quotation marks.  A field that begins with a quotation mark runs to the next
one that is not doubled, and every other character stands for itself.

A table that was written reads back as its rows (`read_flatMap_record`), whatever they hold: a field
that is written without quotation marks holds none of the characters that the reader looks for, and
in a field with them only the doubled ones count.  So the table of a history tells all of it
(`read_table_run`).
-/

namespace Calculator

namespace Csv

/-! ### The reader -/

/-- Where a reader stands in a field. -/
inductive Place where
  /-- Before its first character. -/
  | start
  /-- In a field without quotation marks around it. -/
  | plain
  /-- Between quotation marks. -/
  | quoted
  /-- Behind a quotation mark that ends the field, or is the first one of a pair. -/
  | closed
deriving DecidableEq

/-- What a character means to a reader. -/
inductive Meaning where
  /-- It is part of the field. -/
  | part (next : Place)
  /-- It is a quotation mark that is not part of the field. -/
  | mark (next : Place)
  /-- It ends the field. -/
  | comma
  /-- It ends the record. -/
  | line
  /-- It cannot stand here. -/
  | misplaced

/-- What a character means at some place. -/
def Place.meaning (place : Place) (c : Char) : Meaning :=
  match place with
  | start =>
    if c = ',' then .comma else if c = '\n' then .line
    else if c = '"' then .mark quoted else .part plain
  | plain => if c = ',' then .comma else if c = '\n' then .line else .part plain
  | quoted => if c = '"' then .mark closed else .part quoted
  | closed =>
    if c = ',' then .comma else if c = '\n' then .line
    else if c = '"' then .part quoted else .misplaced

/-- What a reader finds from some place on: the rest of a field, the fields behind it in the same
record, and the records behind that one. -/
structure Found where
  /-- The rest of the field. -/
  field : Text
  /-- The fields behind it in the record. -/
  fields : List Text
  /-- The records behind that one. -/
  records : List (List Text)

/-- Some characters of the field stand before the rest of it. -/
def Found.prepend (s : Text) (f : Found) : Found := { f with field := s ++ f.field }

/-- The record that is found, and those behind it. -/
def Found.toRecords (f : Found) : List (List Text) := (f.field :: f.fields) :: f.records

/-- Reads on from some place.  Nothing is found if the last record has no end. -/
def readFrom : Place → Text → Option Found
  | _, [] => none
  | place, c :: rest =>
    match place.meaning c with
    | .part next => (readFrom next rest).map (Found.prepend [c])
    | .mark next => readFrom next rest
    | .comma => (readFrom .start rest).map fun f => ⟨[], f.field :: f.fields, f.records⟩
    | .line =>
      if rest.isEmpty then some ⟨[], [], []⟩
      else (readFrom .start rest).map fun f => ⟨[], [], f.toRecords⟩
    | .misplaced => none

/-- The records of a table. -/
def read (s : Text) : Option (List (List Text)) :=
  if s.isEmpty then some [] else (readFrom .start s).map Found.toRecords

@[simp] theorem Found.prepend_nil : Found.prepend [] = id := rfl

theorem Found.prepend_cons (c : Char) (s : Text) :
    Found.prepend [c] ∘ Found.prepend s = Found.prepend (c :: s) := rfl

section

variable {place next : Place} {c : Char} (rest : Text)

theorem readFrom_part (h : place.meaning c = .part next) :
    readFrom place (c :: rest) = (readFrom next rest).map (Found.prepend [c]) := by
  rw [readFrom, h]

theorem readFrom_mark (h : place.meaning c = .mark next) :
    readFrom place (c :: rest) = readFrom next rest := by
  rw [readFrom, h]

theorem readFrom_comma (h : place.meaning c = .comma) :
    readFrom place (c :: rest) =
      (readFrom .start rest).map fun f => ⟨[], f.field :: f.fields, f.records⟩ := by
  rw [readFrom, h]

theorem readFrom_line (h : place.meaning c = .line) :
    readFrom place (c :: rest) = (read rest).map fun records => ⟨[], [], records⟩ := by
  rw [readFrom, h, read]
  dsimp only
  split_ifs
  · rfl
  · rw [Option.map_map]
    rfl

end

/-! ### Fields -/

/-- The text goes on with the end of a field. -/
def EndsField (s : Text) : Prop := ∃ c rest, s = c :: rest ∧ (c = ',' ∨ c = '\n')

theorem readFrom_of_endsField {s : Text} (h : EndsField s) {place : Place}
    (hplace : place ≠ .quoted) : readFrom place s = readFrom .closed s := by
  obtain ⟨c, rest, rfl, hc⟩ := h
  have hmeaning : place.meaning c = Place.closed.meaning c := by
    cases place with
    | quoted => exact absurd rfl hplace
    | _ => rcases hc with rfl | rfl <;> rfl
  rw [readFrom, readFrom, hmeaning]

theorem needsQuotes_cons (c : Char) (s : Text) :
    needsQuotes (c :: s) = false ↔ (c ≠ ',' ∧ c ≠ '"' ∧ c ≠ '\n') ∧ needsQuotes s = false := by
  simp [needsQuotes, and_assoc]

theorem readFrom_plain_append {s : Text} (hs : needsQuotes s = false) (rest : Text) :
    readFrom .plain (s ++ rest) = (readFrom .plain rest).map (Found.prepend s) := by
  induction s with
  | nil => simp
  | cons c s ih =>
    obtain ⟨⟨hcomma, -, hline⟩, hs⟩ := (needsQuotes_cons c s).mp hs
    have hpart : Place.plain.meaning c = .part .plain := by simp [Place.meaning, hcomma, hline]
    rw [List.cons_append, readFrom_part _ hpart, ih hs, Option.map_map, Found.prepend_cons]

theorem readFrom_start_append {s : Text} (hs : needsQuotes s = false) {rest : Text}
    (hrest : EndsField rest) :
    readFrom .start (s ++ rest) = (readFrom .closed rest).map (Found.prepend s) := by
  cases s with
  | nil =>
    rw [List.nil_append, readFrom_of_endsField hrest (by decide)]
    simp
  | cons c s =>
    obtain ⟨⟨hcomma, hquote, hline⟩, hs⟩ := (needsQuotes_cons c s).mp hs
    have hpart : Place.start.meaning c = .part .plain := by
      simp [Place.meaning, hcomma, hquote, hline]
    rw [List.cons_append, readFrom_part _ hpart, readFrom_plain_append hs, Option.map_map,
      readFrom_of_endsField hrest (by decide), Found.prepend_cons]

theorem readFrom_quoted_append (s rest : Text) :
    readFrom .quoted (doubleQuotes s ++ '"' :: rest) =
      (readFrom .closed rest).map (Found.prepend s) := by
  induction s with
  | nil =>
    show readFrom .quoted ('"' :: rest) = _
    rw [readFrom_mark rest rfl]
    simp
  | cons c s ih =>
    unfold doubleQuotes at ih ⊢
    rw [List.flatMap_cons, List.append_assoc]
    by_cases hquote : c = '"'
    · -- the first one of a pair might have ended the field
      subst hquote
      rw [if_pos rfl, List.cons_append, List.cons_append, List.nil_append, readFrom_mark _ rfl,
        readFrom_part _ rfl, ih, Option.map_map, Found.prepend_cons]
    · have hpart : Place.quoted.meaning c = .part .quoted := if_neg hquote
      rw [if_neg hquote, List.cons_append, List.nil_append, readFrom_part _ hpart, ih,
        Option.map_map, Found.prepend_cons]

/-- **A field reads back as what was written**, in front of anything that ends it. -/
theorem readFrom_field_append (s : Text) {rest : Text} (hrest : EndsField rest) :
    readFrom .start (field s ++ rest) = (readFrom .closed rest).map (Found.prepend s) := by
  unfold field
  cases hs : needsQuotes s with
  | false =>
    rw [if_neg (by decide)]
    exact readFrom_start_append hs hrest
  | true =>
    rw [if_pos rfl, List.append_assoc, List.append_assoc, List.singleton_append,
      List.singleton_append, readFrom_mark _ rfl]
    exact readFrom_quoted_append s rest

/-! ### Records and tables -/

theorem read_record_append (row : Text × Text) (rest : Text) :
    read (record row ++ rest) = (read rest).map ([row.1, row.2] :: ·) := by
  have hrecord : record row ++ rest = field row.1 ++ ',' :: (field row.2 ++ '\n' :: rest) := by
    simp [record]
  have hne : (record row ++ rest).isEmpty = false := by simp [record]
  rw [read, hne, if_neg (by decide), hrecord, readFrom_field_append _ ⟨_, _, rfl, .inl rfl⟩,
    readFrom_comma _ rfl, readFrom_field_append _ ⟨_, _, rfl, .inr rfl⟩, readFrom_line _ rfl]
  simp only [Option.map_map]
  congr 1
  funext records
  simp [Found.toRecords, Found.prepend]

/-- **A table reads back as its rows.** -/
theorem read_flatMap_record (rows : List (Text × Text)) :
    read (rows.flatMap record) = some (rows.map fun row => [row.1, row.2]) := by
  induction rows with
  | nil => rfl
  | cons row rest ih =>
    rw [List.flatMap_cons, read_record_append, ih]
    rfl

theorem table_injective {rows rows' : List (Text × Text)} (h : table rows = table rows') :
    rows = rows' := by
  have hread := congrArg read h
  unfold table at hread
  rw [read_flatMap_record, read_flatMap_record, Option.some.injEq, List.map_cons, List.map_cons,
    List.cons.injEq] at hread
  refine List.map_injective_iff.mpr ?_ hread.2
  intro row row' heq
  simpa [Prod.ext_iff] using heq

end Csv

/-! ### Tables of sessions -/

/-- The rows of a history are all that there is to it. -/
theorem exists_rows_run {rules : SessionRules} (hrules : rules.settings = .standard)
    (steps : List Step) :
    ∃ rows, Session.frame rules (Session.run rules .initial steps) = .ok rows ∧
      (Session.run rules .initial steps).history =
        rows.map fun row => formatEntry .standard row.1 row.2 := by
  set commands := steps.filterMap Step.command?
  set rows := rules.retain (successesOf rules commands) with hrows
  have hhistory : (Session.run rules .initial steps).history =
      rows.map fun row => formatEntry .standard row.1 row.2 := by
    rw [Session.run_eq_foldl, foldl_obey_initial, ← hrules]
    rfl
  refine ⟨rows, ?_, hhistory⟩
  unfold Session.frame
  rw [hhistory, hrules]
  apply historyRows_map_formatEntry
  intro row hrow
  obtain ⟨expression, -, hexpression⟩ :=
    List.mem_filterMap.mp (mem_of_mem_retain rules (hrows ▸ hrow))
  obtain ⟨result, hresult, rfl⟩ := Option.map_eq_some_iff.mp hexpression
  exact notMem_of_success? rules hrules hresult

theorem ending_readTable {rules : SessionRules} {s : SessionState} {rows : List (Text × Text)}
    (h : Session.frame rules s = .ok rows) :
    (Session.step rules s .readTable).ending = pure (.table rows.length (Csv.table rows)) := by
  unfold Session.step
  dsimp only
  rw [h]
  rfl

/-- **The table of a history tells all of it.**  After any steps of a new session its table reads
back as the names of the columns and the rows of the history, and no session with another history
has the same table. -/
theorem read_table_run (rules : SessionRules) (hrules : rules.settings = .standard)
    (steps : List Step) :
    ∃ rows, Session.frame rules (Session.run rules .initial steps) = .ok rows ∧
      (Session.step rules (Session.run rules .initial steps) .readTable).ending =
        pure (.table rows.length (Csv.table rows)) ∧
      Csv.read (Csv.table rows) = some ((Csv.header :: rows).map fun row => [row.1, row.2]) ∧
      ∀ (rules' : SessionRules) (steps' : List Step) (count : ℕ), rules'.settings = .standard →
        (Session.step rules' (Session.run rules' .initial steps') .readTable).ending.outcome =
          .ok (.table count (Csv.table rows)) →
        (Session.run rules' .initial steps').history =
          (Session.run rules .initial steps).history := by
  obtain ⟨rows, hframe, hhistory⟩ := exists_rows_run hrules steps
  refine ⟨rows, hframe, ending_readTable hframe, Csv.read_flatMap_record _, ?_⟩
  intro rules' steps' count hrules' htable
  obtain ⟨rows', hframe', hhistory'⟩ := exists_rows_run hrules' steps'
  rw [ending_readTable hframe', Traced.outcome_pure, Except.ok.injEq, Reply.table.injEq] at htable
  rw [hhistory, hhistory', Csv.table_injective htable.2]

/-- An expression with a comma, quotation marks and a line feed, and one that ends with a carriage
return. -/
theorem read_table_run_quotes :
    Csv.read "expression,result\n\"\"\"1\"\",\n+2\",3\n 1\r,1\n".toList =
      some [["expression".toList, "result".toList], ["\"1\",\n+2".toList, "3".toList],
        [" 1\r".toList, "1".toList]] ∧
    (Session.step ⟨.standard, evaluate .standard, none, forall_mem_none_pos⟩
        (Session.run ⟨.standard, evaluate .standard, none, forall_mem_none_pos⟩ .initial
          [.append (.text " 1\r".toList), .calculate, .clear,
            .append (.text "\"1\",\n+2".toList), .calculate]) .readTable).ending =
      pure (.table 2 "expression,result\n\"\"\"1\"\",\n+2\",3\n 1\r,1\n".toList) := by
  set rules : SessionRules := ⟨.standard, evaluate .standard, none, forall_mem_none_pos⟩
  set steps : List Step := [.append (.text " 1\r".toList), .calculate, .clear,
    .append (.text "\"1\",\n+2".toList), .calculate]
  obtain ⟨rows, hframe, hending, hread, -⟩ := read_table_run rules rfl steps
  have hrows : Session.frame rules (Session.run rules .initial steps) =
      .ok [("\"1\",\n+2".toList, "3".toList), (" 1\r".toList, "1".toList)] := by
    decide +kernel
  obtain rfl := Except.ok.inj (hframe.symm.trans hrows)
  exact ⟨hread, hending⟩

end Calculator
