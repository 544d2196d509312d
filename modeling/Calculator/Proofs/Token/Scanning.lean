import Calculator.Proofs.Numeral.Literal

/-!
# The tokens of a text

`tokensFrom operandDue s` are the tokens of a text behind others, wherever it stands
(`tokensFrom_eq`).  It has one equation for each way a text can go on: a run of digits and points
(`tokensFrom_run`), a character that stands for a token (`tokensFrom_symbol`) and one that does not
(`tokensFrom_skipped`); `runInduction` is the induction that goes with them.

`numberRuns` are the maximal runs of digits and points.  They are the literals among the tokens, in
order (`literals_tokenize`).
-/

namespace Calculator

/-! ### Where a text stands -/

namespace Lexeme

/-- The lexeme `distance` characters further on. -/
def shift (distance : Nat) : Lexeme → Lexeme
  | number index literal => number (index + distance) literal
  | symbol index t => symbol (index + distance) t
  | skipped index c => skipped (index + distance) c

@[simp] theorem token?_shift (distance : Nat) (l : Lexeme) :
    (l.shift distance).token? = l.token? := by
  cases l <;> rfl

theorem consNumberChar_shift (distance index : Nat) (c : Char) (ls : List Lexeme) :
    consNumberChar (index + distance) c (ls.map (shift distance)) =
      (consNumberChar index c ls).map (shift distance) := by
  match ls with
  | [] => rfl
  | .symbol .. :: _ | .skipped .. :: _ => rfl
  | .number next literal :: rest =>
    have hiff : next + distance = index + distance + 1 ↔ next = index + 1 := by omega
    simp only [List.map_cons, shift, consNumberChar, hiff]
    split <;> rfl

theorem scan_shift (distance : Nat) (operandDue : Bool) (index : Nat) (s : Text) :
    scan operandDue (index + distance) s = (scan operandDue index s).map (shift distance) := by
  induction s generalizing operandDue index with
  | nil => rfl
  | cons c rest ih =>
    have ih' (due : Bool) := ih due (index + 1)
    rw [Nat.add_right_comm] at ih'
    simp only [scan, ih', consNumberChar_shift]
    split
    · rfl
    · cases charToken? operandDue c <;> rfl

end Lexeme

/-- The tokens of a text that stands behind others, where an operand may be due. -/
def tokensFrom (operandDue : Bool) (s : Text) : List Token :=
  (Lexeme.scan operandDue 0 s).filterMap Lexeme.token?

theorem tokensFrom_eq (operandDue : Bool) (index : Nat) (s : Text) :
    (Lexeme.scan operandDue index s).filterMap Lexeme.token? = tokensFrom operandDue s := by
  have h := Lexeme.scan_shift index operandDue 0 s
  rw [Nat.zero_add] at h
  rw [h, List.filterMap_map, tokensFrom]
  congr 1
  funext l
  exact Lexeme.token?_shift index l

@[simp] theorem tokensFrom_nil (operandDue : Bool) : tokensFrom operandDue [] = [] := rfl

/-! ### How a text goes on -/

/-- The characters of operators and parentheses. -/
def symbols : List Char := ['+', '-', '*', '/', '%', '^', '√', '(', ')']

theorem symbolToken?_eq_none_iff (c : Char) : symbolToken? c = none ↔ c ∉ symbols := by
  unfold symbolToken?
  split <;> simp_all [symbols]

theorem tokensFrom_symbol {c : Char} (hc : isNumberChar c = false) {operandDue : Bool} {t : Token}
    (ht : charToken? operandDue c = some t) (rest : Text) :
    tokensFrom operandDue (c :: rest) = t :: tokensFrom t.awaitsOperand rest := by
  rw [← tokensFrom_eq t.awaitsOperand 1 rest]
  simp [tokensFrom, Lexeme.scan, hc, ht, Lexeme.token?]

theorem tokensFrom_skipped {c : Char} (hc : isNumberChar c = false) {operandDue : Bool}
    (ht : charToken? operandDue c = none) (rest : Text) :
    tokensFrom operandDue (c :: rest) = tokensFrom operandDue rest := by
  rw [← tokensFrom_eq operandDue 1 rest]
  simp [tokensFrom, Lexeme.scan, hc, ht, List.filterMap_cons, Lexeme.token?]

/-- The text does not go on with a digit or a point. -/
def EndsRun (rest : Text) : Prop := ∀ c ∈ rest.head?, isNumberChar c = false

theorem endsRun_nil : EndsRun [] := by
  intro c hc
  simp at hc

theorem endsRun_cons {c : Char} (hc : isNumberChar c = false) (rest : Text) :
    EndsRun (c :: rest) := by
  intro x hx
  obtain rfl := Option.some.inj hx
  exact hc

theorem Lexeme.consNumberChar_of_endsRun {rest : Text} (h : EndsRun rest) (operandDue : Bool)
    (index next : Nat) (c : Char) :
    consNumberChar index c (scan operandDue next rest) =
      .number index [c] :: scan operandDue next rest := by
  cases rest with
  | nil => rfl
  | cons x rest =>
    have hx : isNumberChar x = false := h x rfl
    cases ht : charToken? operandDue x <;> simp [scan, hx, ht, consNumberChar]

/-- A run of digits and points is one lexeme. -/
theorem Lexeme.scan_run {run rest : Text} (hne : run ≠ []) (h : ∀ c ∈ run, isNumberChar c = true)
    (hrest : EndsRun rest) (operandDue : Bool) (index : Nat) :
    scan operandDue index (run ++ rest) =
      .number index run :: scan false (index + run.length) rest := by
  induction run generalizing operandDue index with
  | nil => exact absurd rfl hne
  | cons c run ih =>
    obtain ⟨hc, hrun⟩ := List.forall_mem_cons.mp h
    rw [List.cons_append, scan, if_pos hc]
    cases run with
    | nil => exact consNumberChar_of_endsRun hrest false index (index + 1) c
    | cons x run =>
      rw [ih (List.cons_ne_nil x run) hrun false (index + 1), consNumberChar, if_pos rfl,
        List.length_cons (a := c), Nat.add_right_comm, Nat.add_assoc index]

theorem tokensFrom_run {run rest : Text} (hne : run ≠ []) (h : ∀ c ∈ run, isNumberChar c = true)
    (hrest : EndsRun rest) (operandDue : Bool) :
    tokensFrom operandDue (run ++ rest) = .ofLiteral run :: tokensFrom false rest := by
  rw [← tokensFrom_eq operandDue 0, Lexeme.scan_run hne h hrest, List.filterMap_cons,
    tokensFrom_eq]
  rfl

/-- Induction over a text along its maximal runs of digits and points. -/
@[elab_as_elim]
theorem runInduction {motive : Text → Prop} (nil : motive [])
    (run : ∀ run rest : Text, run ≠ [] → (∀ c ∈ run, isNumberChar c = true) → EndsRun rest →
      motive rest → motive (run ++ rest))
    (other : ∀ c rest, isNumberChar c = false → motive rest → motive (c :: rest)) (s : Text) :
    motive s := by
  induction hn : s.length using Nat.strong_induction_on generalizing s with
  | _ n ih =>
  cases s with
  | nil => exact nil
  | cons c rest =>
    cases hc : isNumberChar c with
    | false => exact other c rest hc (ih rest.length (by simp [← hn]) rest rfl)
    | true =>
      -- the run that `c` starts, and what is left behind it
      have hsplit := List.takeWhile_append_dropWhile (p := isNumberChar) (l := c :: rest)
      rw [← hsplit]
      refine run _ _ (by simp [hc]) (fun x hx => List.mem_takeWhile_imp hx) (fun x hx => ?_) ?_
      · have hhead := List.head?_dropWhile_not isNumberChar (c :: rest)
        rw [Option.mem_def.mp hx] at hhead
        exact hhead
      · refine ih _ ?_ _ rfl
        rw [← hn, List.dropWhile_cons_of_pos hc]
        exact Nat.lt_succ_of_le (List.length_dropWhile_le isNumberChar rest)

/-! ### One text behind another -/

/-- Whether an operand is due behind some tokens, the first of which was read where `operandDue`
says so. -/
def dueBehind (operandDue : Bool) (tokens : List Token) : Bool :=
  (tokens.getLast?.map Token.awaitsOperand).getD operandDue

@[simp] theorem dueBehind_nil (operandDue : Bool) : dueBehind operandDue [] = operandDue := rfl

@[simp] theorem dueBehind_cons (operandDue : Bool) (t : Token) (tokens : List Token) :
    dueBehind operandDue (t :: tokens) = dueBehind t.awaitsOperand tokens := by
  unfold dueBehind
  rw [List.getLast?_cons]
  cases tokens.getLast? <;> rfl

/-- The tokens of two texts, one behind the other, are those of both, unless the first ends with a
run that the second goes on with.  No run ends the first one if an operand is due behind it. -/
theorem tokensFrom_append_of (s : Text) {behind : Text} (operandDue : Bool)
    (h : EndsRun behind ∨ dueBehind operandDue (tokensFrom operandDue s) = true) :
    tokensFrom operandDue (s ++ behind) =
      tokensFrom operandDue s ++ tokensFrom (dueBehind operandDue (tokensFrom operandDue s))
        behind := by
  induction s using runInduction generalizing operandDue with
  | nil => rfl
  | run run rest hne hrun hrest ih =>
    rw [tokensFrom_run hne hrun hrest, dueBehind_cons] at h ⊢
    have h : EndsRun behind ∨ dueBehind false (tokensFrom false rest) = true := h
    have hends : EndsRun (rest ++ behind) := by
      cases rest with
      | nil => exact h.resolve_right Bool.false_ne_true
      | cons c rest => exact endsRun_cons (hrest c rfl) (rest ++ behind)
    rw [List.append_assoc, tokensFrom_run hne hrun hends, ih false h, List.cons_append]
    rfl
  | other c rest hc ih =>
    rw [List.cons_append]
    cases ht : charToken? operandDue c with
    | none =>
      rw [tokensFrom_skipped hc ht] at h
      rw [tokensFrom_skipped hc ht, tokensFrom_skipped hc ht, ih operandDue h]
    | some t =>
      rw [tokensFrom_symbol hc ht, dueBehind_cons] at h
      rw [tokensFrom_symbol hc ht, tokensFrom_symbol hc ht, dueBehind_cons, ih t.awaitsOperand h,
        List.cons_append]

theorem tokensFrom_append (s : Text) {behind : Text} (hbehind : EndsRun behind)
    (operandDue : Bool) :
    tokensFrom operandDue (s ++ behind) =
      tokensFrom operandDue s ++ tokensFrom (dueBehind operandDue (tokensFrom operandDue s))
        behind :=
  tokensFrom_append_of s operandDue (.inl hbehind)

theorem tokensFrom_append_of_due {s : Text} {operandDue : Bool}
    (h : dueBehind operandDue (tokensFrom operandDue s) = true) (behind : Text) :
    tokensFrom operandDue (s ++ behind) = tokensFrom operandDue s ++ tokensFrom true behind := by
  rw [tokensFrom_append_of s operandDue (.inr h), h]

/-! ### Runs of digits and points -/

/-- The maximal runs of digits and points, from left to right. -/
def numberRuns (s : Text) : List Text :=
  (s.splitOnP fun c => !isNumberChar c).filter fun run => !run.isEmpty

@[simp] theorem numberRuns_nil : numberRuns [] = [] := by
  simp [numberRuns, List.splitOnP_nil]

theorem numberRuns_cons {c : Char} (hc : isNumberChar c = false) (rest : Text) :
    numberRuns (c :: rest) = numberRuns rest := by
  simp [numberRuns, List.splitOnP_cons_eq_if_modifyHead, hc]

theorem numberRuns_run {run rest : Text} (hne : run ≠ []) (h : ∀ c ∈ run, isNumberChar c = true)
    (hrest : EndsRun rest) : numberRuns (run ++ rest) = run :: numberRuns rest := by
  have hnot : ∀ c ∈ run, (!isNumberChar c) = false := fun c hc => by simp [h c hc]
  cases rest with
  | nil =>
    rw [List.append_nil, numberRuns, List.splitOnP_eq_singleton hnot]
    simp [hne]
  | cons x rest =>
    have hx : isNumberChar x = false := hrest x rfl
    rw [numberRuns_cons hx, numberRuns,
      List.splitOnP_append_cons_of_forall_mem hnot x (by simp [hx])]
    simp [hne, numberRuns]

/-- The literal of a number. -/
def Token.literal? : Token → Option Text
  | .number n => n.literal
  | _ => none

/-- A character that stands for itself makes an operator or a parenthesis. -/
theorem charToken?_eq_some {operandDue : Bool} {c : Char} {t : Token}
    (h : charToken? operandDue c = some t) :
    (∃ kind, t = .ofKind kind) ∨ t = .openParen ∨ t = .closeParen := by
  rw [charToken?] at h
  split at h
  · exact .inl ⟨.neg, (Option.some.inj h).symm⟩
  · unfold symbolToken? at h
    split at h <;> cases h <;>
      first | exact .inl ⟨_, rfl⟩ | exact .inr (.inl rfl) | exact .inr (.inr rfl)

/-- The literals among the tokens of a text are its runs of digits and points. -/
theorem literals_tokensFrom (operandDue : Bool) (s : Text) :
    (tokensFrom operandDue s).filterMap Token.literal? = numberRuns s := by
  induction s using runInduction generalizing operandDue with
  | nil => rfl
  | run run rest hne h hrest ih =>
    rw [tokensFrom_run hne h hrest, numberRuns_run hne h hrest, List.filterMap_cons, ih]
    rfl
  | other c rest hc ih =>
    rw [numberRuns_cons hc]
    cases ht : charToken? operandDue c with
    | none => rw [tokensFrom_skipped hc ht, ih]
    | some t =>
      have hliteral : t.literal? = none := by
        obtain ⟨kind, rfl⟩ | rfl | rfl := charToken?_eq_some ht <;> rfl
      rw [tokensFrom_symbol hc ht, List.filterMap_cons, hliteral, ih]

theorem literals_tokenize (s : Text) : (tokenize s).filterMap Token.literal? = numberRuns s :=
  literals_tokensFrom true s

end Calculator
