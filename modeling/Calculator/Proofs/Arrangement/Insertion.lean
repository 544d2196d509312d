import Calculator.Proofs.Arrangement.Emission
import Mathlib.Data.List.TakeWhile

/-!
# Operators that wait together

Let two runs of arranging differ in nothing but some operators that wait in one of them as well, all
next to each other (`Inserts`).  If no operator that follows binds tighter than they do, then they
come out together, and that is all the difference it makes (`exists_tokens_of_inserts`): whatever
reaches the latest of them releases them all, be it an operator, the end of a group or the end of
the tokens, and goes on to what the other run releases at this point.
-/

namespace Calculator

/-- The operators `extra` wait in the second state as well, all else is the same in both: what waits
in the innermost group, and what waits in each group around it. -/
inductive Inserts (extra : List Operator) :
    List Operator → List (List Operator) → List Operator → List (List Operator) → Prop where
  /-- They wait in the innermost group. -/
  | innermost (later earlier : List Operator) (enclosing : List (List Operator)) :
      Inserts extra (later ++ earlier) enclosing (later ++ (extra ++ earlier)) enclosing
  /-- They wait in a group around it. -/
  | enclosing (waiting : List Operator) {outer outer' : List Operator}
      {enclosing enclosing' : List (List Operator)}
      (h : Inserts extra outer enclosing outer' enclosing') :
      Inserts extra waiting (outer :: enclosing) waiting (outer' :: enclosing')

/-- Waiting operators are either all released, and what waits behind them is reached, or some of
them stays, and then it is not. -/
theorem takeWhile_append_cases (op : Operator) (later : List Operator) :
    (∀ earlier, (later ++ earlier).takeWhile (bindsBefore op) =
          later ++ earlier.takeWhile (bindsBefore op) ∧
        (later ++ earlier).dropWhile (bindsBefore op) = earlier.dropWhile (bindsBefore op)) ∨
      ∀ earlier, (later ++ earlier).takeWhile (bindsBefore op) =
          later.takeWhile (bindsBefore op) ∧
        (later ++ earlier).dropWhile (bindsBefore op) =
          later.dropWhile (bindsBefore op) ++ earlier := by
  by_cases hall : ∀ waiting ∈ later, bindsBefore op waiting = true
  · left
    intro earlier
    exact ⟨List.takeWhile_append_of_pos hall, List.dropWhile_append_of_pos hall⟩
  · right
    intro earlier
    have hlength : (later.takeWhile (bindsBefore op)).length ≠ later.length := by
      intro h
      have htake := (List.takeWhile_prefix (bindsBefore op)).eq_of_length h
      exact hall (List.takeWhile_eq_self_iff.mp htake)
    have hdrop : (later.dropWhile (bindsBefore op)).isEmpty = false := by
      rw [List.isEmpty_eq_false_iff]
      intro h
      exact hall (List.dropWhile_eq_nil_iff.mp h)
    rw [List.takeWhile_append, if_neg hlength, List.dropWhile_append, hdrop]
    exact ⟨rfl, rfl⟩

/-- The operators wait as tightly as any that may release them. -/
def BindsAll (extra : List Operator) (tokens : List Token) : Prop :=
  ∀ op, .operator op ∈ tokens → op.isPrefixed = false → ∀ waiting ∈ extra,
    bindsBefore op waiting = true

theorem BindsAll.of_cons {extra : List Operator} {t : Token} {tokens : List Token}
    (h : BindsAll extra (t :: tokens)) : BindsAll extra tokens :=
  fun op hop => h op (List.mem_cons_of_mem t hop)

/-- The tokens are emitted in both runs, and those of `extra` in between in the second one. -/
def EmitsBetween (extra : List Operator) (output output' : List Token) : Prop :=
  ∃ front back, output = front ++ back ∧ output' = front ++ (released extra ++ back)

theorem EmitsBetween.append {extra : List Operator} {output output' : List Token}
    (h : EmitsBetween extra output output') (first : List Token) :
    EmitsBetween extra (first ++ output) (first ++ output') := by
  obtain ⟨front, back, rfl, rfl⟩ := h
  exact ⟨first ++ front, back, by simp, by simp⟩

section

variable {extra : List Operator} (later earlier : List Operator) (enclosing : List (List Operator))
  (tokens : List Token)

/-- The end of a group releases all of it, and the runs go on alike. -/
theorem emitsBetween_rightParen (p : Paren) :
    EmitsBetween extra
      (arrangeFrom (.rightParen p :: tokens) (later ++ earlier) enclosing).tokens
      (arrangeFrom (.rightParen p :: tokens) (later ++ (extra ++ earlier)) enclosing).tokens := by
  obtain ⟨rest, hrest⟩ : ∃ rest, ∀ waiting,
      (arrangeFrom (.rightParen p :: tokens) waiting enclosing).tokens =
        released waiting ++ rest := by
    cases enclosing with
    | nil => exact ⟨_, fun waiting => by rw [arrangeFrom]; rfl⟩
    | cons outer enclosing => exact ⟨_, fun waiting => by rw [arrangeFrom_rightParen_cons]; rfl⟩
  rw [hrest, hrest]
  exact ⟨released later, released earlier ++ rest, by simp [released], by simp [released]⟩

variable {tokens}

/-- An operator that reaches those inserted releases them all, and the runs go on alike.  If it does
not reach them they go on waiting. -/
theorem emitsBetween_operator {op : Operator} (hop : op.isPrefixed = false)
    (hextra : ∀ waiting ∈ extra, bindsBefore op waiting = true)
    (ih : ∀ later, EmitsBetween extra (arrangeFrom tokens (later ++ earlier) enclosing).tokens
      (arrangeFrom tokens (later ++ (extra ++ earlier)) enclosing).tokens) :
    EmitsBetween extra (arrangeFrom (.operator op :: tokens) (later ++ earlier) enclosing).tokens
      (arrangeFrom (.operator op :: tokens) (later ++ (extra ++ earlier)) enclosing).tokens := by
  rw [arrangeFrom_of_not_isPrefixed hop, arrangeFrom_of_not_isPrefixed hop,
    Arrangement.tokens_prepend, Arrangement.tokens_prepend]
  rcases takeWhile_append_cases op later with hall | hsome
  · rw [(hall earlier).1, (hall earlier).2, (hall (extra ++ earlier)).1,
      (hall (extra ++ earlier)).2, List.takeWhile_append_of_pos hextra,
      List.dropWhile_append_of_pos hextra]
    exact ⟨released later, released (earlier.takeWhile (bindsBefore op)) ++
      (arrangeFrom tokens (op :: earlier.dropWhile (bindsBefore op)) enclosing).tokens,
      by simp [released], by simp [released]⟩
  · rw [(hsome earlier).1, (hsome earlier).2, (hsome (extra ++ earlier)).1,
      (hsome (extra ++ earlier)).2]
    exact (ih (op :: later.dropWhile (bindsBefore op))).append _

end

/-- **Operators that wait together come out together**, if none that follows binds tighter. -/
theorem exists_tokens_of_inserts {extra : List Operator} {tokens : List Token}
    (hbinds : BindsAll extra tokens) {waiting waiting' : List Operator}
    {enclosing enclosing' : List (List Operator)}
    (h : Inserts extra waiting enclosing waiting' enclosing') :
    EmitsBetween extra (arrangeFrom tokens waiting enclosing).tokens
      (arrangeFrom tokens waiting' enclosing').tokens := by
  induction tokens generalizing waiting waiting' enclosing enclosing' with
  | nil =>
    show EmitsBetween extra (released (waiting ++ enclosing.flatten))
      (released (waiting' ++ enclosing'.flatten))
    induction h with
    | innermost later earlier enclosing =>
      exact ⟨released later, released (earlier ++ enclosing.flatten), by simp [released],
        by simp [released]⟩
    | enclosing waiting h ih =>
      have h := ih.append (released waiting)
      simpa [released] using h
  | cons t tokens ih =>
    have ih {waiting waiting' enclosing enclosing'}
        (h : Inserts extra waiting enclosing waiting' enclosing') := ih hbinds.of_cons h
    cases t with
    | number n =>
      rw [arrangeFrom_number, arrangeFrom_number]
      exact (ih h).append [.number n]
    | leftParen p =>
      rw [arrangeFrom_leftParen, arrangeFrom_leftParen]
      exact ih (.enclosing [] h)
    | rightParen p =>
      cases h with
      | innermost later earlier enclosing =>
        exact emitsBetween_rightParen later earlier enclosing tokens p
      | enclosing waiting h =>
        rw [arrangeFrom_rightParen_cons, arrangeFrom_rightParen_cons]
        exact (ih h).append (released waiting)
    | operator op =>
      cases hop : op.isPrefixed with
      | true =>
        rw [arrangeFrom_of_isPrefixed hop, arrangeFrom_of_isPrefixed hop]
        cases h with
        | innermost later earlier enclosing => exact ih (.innermost (op :: later) earlier enclosing)
        | enclosing waiting h => exact ih (.enclosing (op :: waiting) h)
      | false =>
        cases h with
        | innermost later earlier enclosing =>
          exact emitsBetween_operator later earlier enclosing hop
            (hbinds op List.mem_cons_self hop) fun later => ih (.innermost later earlier enclosing)
        | enclosing waiting h =>
          rw [arrangeFrom_of_not_isPrefixed hop, arrangeFrom_of_not_isPrefixed hop]
          exact (ih (.enclosing (op :: waiting.dropWhile (bindsBefore op)) h)).append _

end Calculator
