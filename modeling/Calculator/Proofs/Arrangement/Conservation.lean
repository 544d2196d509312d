import Calculator.Proofs.Arrangement.Emission
import Mathlib.Data.List.Perm.Basic

/-!
# What arranging keeps

Arranging loses no number and no operator, adds none and drops all parentheses, whatever the tokens
are (`arrangeFrom_perm`), and it keeps the order of the numbers (`filterMap_arrange`).
-/

namespace Calculator

/-- The numbers and operators among some tokens. -/
def withoutParens (tokens : List Token) : List Token := tokens.filter fun t => !t.isParen

section

variable (rest : List Token)

@[simp] theorem withoutParens_number (n : Number) :
    withoutParens (.number n :: rest) = .number n :: withoutParens rest := rfl

@[simp] theorem withoutParens_operator (op : Operator) :
    withoutParens (.operator op :: rest) = .operator op :: withoutParens rest := rfl

@[simp] theorem withoutParens_leftParen (p : Paren) :
    withoutParens (.leftParen p :: rest) = withoutParens rest := rfl

@[simp] theorem withoutParens_rightParen (p : Paren) :
    withoutParens (.rightParen p :: rest) = withoutParens rest := rfl

end

theorem mem_withoutParens {tokens : List Token} {t : Token} :
    t ∈ withoutParens tokens ↔ t ∈ tokens ∧ t.isParen = false := by
  simp [withoutParens]

theorem released_append (first second : List Operator) :
    released (first ++ second) = released first ++ released second :=
  List.map_append

/-- The tokens that come out are those that go in, without the parentheses, and the operators that
were waiting. -/
theorem arrangeFrom_perm (tokens : List Token) (waiting : List Operator)
    (enclosing : List (List Operator)) :
    ((arrangeFrom tokens waiting enclosing).tokens).Perm
      (withoutParens tokens ++ released (waiting ++ enclosing.flatten)) := by
  -- both sides hold every token equally often, and counting makes sums of them
  rw [List.perm_iff_count]
  intro t
  fun_induction arrangeFrom tokens waiting enclosing with
  | case1 waiting enclosing => rfl
  | case2 n rest waiting enclosing ih =>
    rw [withoutParens_number, Arrangement.tokens_prepend, List.singleton_append, List.cons_append,
      List.count_cons, List.count_cons, ih]
  | case3 p rest waiting enclosing ih =>
    rw [withoutParens_leftParen, ih, List.flatten_cons, List.nil_append]
  | case4 p rest waiting ih =>
    simp only [withoutParens_rightParen, Arrangement.tokens_prepend,
      Arrangement.tokens_notedFirst, List.count_append, ih, List.flatten_nil, List.append_nil,
      released_nil]
    omega
  | case5 p rest waiting outer enclosing ih =>
    simp only [withoutParens_rightParen, Arrangement.tokens_prepend, List.count_append, ih,
      released_append, List.flatten_cons]
    omega
  | case6 op rest waiting enclosing hop ih =>
    simp only [withoutParens_operator, ih, List.cons_append, released_cons, List.count_append,
      List.count_cons]
    omega
  | case7 op rest waiting enclosing hop ih =>
    -- the waiting operators are split into those released now and those that go on waiting
    have hsplit : (released waiting).count t =
        (released (waiting.takeWhile (bindsBefore op))).count t +
          (released (waiting.dropWhile (bindsBefore op))).count t := by
      rw [← List.count_append, ← released_append, List.takeWhile_append_dropWhile]
    simp only [withoutParens_operator, Arrangement.tokens_prepend, List.count_append, ih,
      List.cons_append, released_cons, released_append, List.count_cons, hsplit]
    omega

theorem arrange_perm (tokens : List Token) :
    (arrange tokens).tokens.Perm (withoutParens tokens) := by
  have h := arrangeFrom_perm tokens [] []
  rwa [List.flatten_nil, List.append_nil, released_nil, List.append_nil] at h

theorem mem_of_mem_arrange {tokens : List Token} {t : Token} (h : t ∈ (arrange tokens).tokens) :
    t ∈ tokens ∧ t.isParen = false := by
  rw [(arrange_perm tokens).mem_iff] at h
  exact mem_withoutParens.mp h

/-- A function of the numbers alone sees them in the same order before and after. -/
theorem filterMap_arrangeFrom {α : Type} {f : Token → Option α}
    (hop : ∀ op, f (.operator op) = none) (hopen : ∀ p, f (.leftParen p) = none)
    (hclose : ∀ p, f (.rightParen p) = none)
    (tokens : List Token) (waiting : List Operator) (enclosing : List (List Operator)) :
    (arrangeFrom tokens waiting enclosing).tokens.filterMap f = tokens.filterMap f := by
  have hreleased (ops : List Operator) : (released ops).filterMap f = [] := by
    induction ops with
    | nil => rfl
    | cons op ops ih => rw [released_cons, List.filterMap_cons, hop, ih]
  fun_induction arrangeFrom tokens waiting enclosing with
  | case1 waiting enclosing => exact hreleased _
  | case2 n rest waiting enclosing ih =>
    simp [ih, List.filterMap_cons]
  | case3 p rest waiting enclosing ih =>
    simp [ih, hopen]
  | case4 p rest waiting ih =>
    simp [ih, hreleased, hclose]
  | case5 p rest waiting outer enclosing ih =>
    simp [ih, hreleased, hclose]
  | case6 op rest waiting enclosing hop' ih =>
    simp [ih, hop]
  | case7 op rest waiting enclosing hop' ih =>
    simp [ih, hreleased, hop]

theorem filterMap_arrange {α : Type} {f : Token → Option α} (hop : ∀ op, f (.operator op) = none)
    (hopen : ∀ p, f (.leftParen p) = none) (hclose : ∀ p, f (.rightParen p) = none)
    (tokens : List Token) : (arrange tokens).tokens.filterMap f = tokens.filterMap f :=
  filterMap_arrangeFrom hop hopen hclose tokens [] []

end Calculator
