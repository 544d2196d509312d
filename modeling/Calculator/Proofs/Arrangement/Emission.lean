import Calculator.Expression.Postfix

/-!
# What a stretch of tokens emits

`Emits waiting tokens output rest` says that arranging `tokens` behind some waiting operators first
emits `output` and then goes on with `rest`, with the same operators waiting as before.  It holds in
every context of enclosing groups, so stretches compose (`Emits.trans`), and each way to build an
operand or an operation has its rule: `Emits.number`, `Emits.group`, `Emits.prefixed` and
`Emits.binary`.

The last two put an operator on top of the waiting ones and need it gone again at the end of the
stretch: `Releases op rest` says that the next token, or the end, makes it go
(`arrangeFrom_of_releases`).
-/

namespace Calculator

namespace Arrangement

@[simp] theorem prepend_nil (a : Arrangement) : a.prepend [] = a := rfl

@[simp] theorem prepend_prepend (a : Arrangement) (first second : List Token) :
    (a.prepend second).prepend first = a.prepend (first ++ second) := by
  simp [prepend]

end Arrangement

@[simp] theorem released_nil : released [] = [] := rfl

@[simp] theorem released_cons (op : Operator) (waiting : List Operator) :
    released (op :: waiting) = .operator op :: released waiting := rfl

/-! ### One token -/

@[simp] theorem arrangeFrom_number (n : Number) (rest : List Token) (waiting : List Operator)
    (enclosing : List (List Operator)) :
    arrangeFrom (.number n :: rest) waiting enclosing =
      (arrangeFrom rest waiting enclosing).prepend [.number n] := by
  rw [arrangeFrom]

@[simp] theorem arrangeFrom_leftParen (p : Paren) (rest : List Token) (waiting : List Operator)
    (enclosing : List (List Operator)) :
    arrangeFrom (.leftParen p :: rest) waiting enclosing =
      arrangeFrom rest [] (waiting :: enclosing) := by
  rw [arrangeFrom]

@[simp] theorem arrangeFrom_rightParen_cons (p : Paren) (rest : List Token)
    (waiting outer : List Operator) (enclosing : List (List Operator)) :
    arrangeFrom (.rightParen p :: rest) waiting (outer :: enclosing) =
      (arrangeFrom rest outer enclosing).prepend (released waiting) := by
  rw [arrangeFrom]

/-- An operator that stands before its operand releases nothing. -/
theorem arrangeFrom_of_isPrefixed {op : Operator} (hop : op.isPrefixed = true) (rest : List Token)
    (waiting : List Operator) (enclosing : List (List Operator)) :
    arrangeFrom (.operator op :: rest) waiting enclosing =
      arrangeFrom rest (op :: waiting) enclosing := by
  rw [arrangeFrom, if_pos hop]

/-- Any other operator releases what binds before it. -/
theorem arrangeFrom_of_not_isPrefixed {op : Operator} (hop : op.isPrefixed = false)
    (rest : List Token) (waiting : List Operator) (enclosing : List (List Operator)) :
    arrangeFrom (.operator op :: rest) waiting enclosing =
      (arrangeFrom rest (op :: waiting.dropWhile (bindsBefore op)) enclosing).prepend
        (released (waiting.takeWhile (bindsBefore op))) := by
  rw [arrangeFrom, if_neg (by simp [hop])]

/-- That is nothing either if the latest of those waiting binds less. -/
theorem arrangeFrom_of_binds {op : Operator} (hop : op.isPrefixed = false) {waiting : List Operator}
    (hw : ∀ first ∈ waiting.head?, first.precedence < op.precedence) (rest : List Token)
    (enclosing : List (List Operator)) :
    arrangeFrom (.operator op :: rest) waiting enclosing =
      arrangeFrom rest (op :: waiting) enclosing := by
  rw [arrangeFrom_of_not_isPrefixed hop]
  cases waiting with
  | nil => rfl
  | cons first others =>
    have hlt : first.precedence < op.precedence := hw first rfl
    have hbinds : bindsBefore op first = false := by simp [bindsBefore, hlt]
    simp [hbinds]

/-! ### Operators that are due to go -/

/-- The tokens make the operator `op` go if it is the latest of those waiting: they end, or they
end a group, or they go on with an operator that binds no tighter. -/
inductive Releases (op : Operator) : List Token → Prop where
  | nil : Releases op []
  | rightParen (p : Paren) (rest : List Token) : Releases op (.rightParen p :: rest)
  | operator {next : Operator} (hnext : next.isPrefixed = false)
      (hle : next.precedence ≤ op.precedence) (rest : List Token) :
      Releases op (.operator next :: rest)

theorem arrangeFrom_of_releases {op : Operator} {tokens : List Token} (h : Releases op tokens)
    (waiting : List Operator) (enclosing : List (List Operator)) :
    arrangeFrom tokens (op :: waiting) enclosing =
      (arrangeFrom tokens waiting enclosing).prepend [.operator op] := by
  cases h with
  | nil => simp [arrangeFrom, Arrangement.prepend]
  | rightParen p rest =>
    -- an end without a start releases what waits as well
    cases enclosing with
    | nil => simp [arrangeFrom]
    | cons outer enclosing => simp
  | @operator next hnext hle rest =>
    have hbinds : bindsBefore next op = true := decide_eq_true hle
    simp [arrangeFrom, hnext, hbinds]

/-! ### Stretches of tokens -/

/-- Arranging `tokens` emits `output` and goes on with `rest`, with the same operators waiting. -/
def Emits (waiting : List Operator) (tokens output rest : List Token) : Prop :=
  ∀ enclosing : List (List Operator),
    arrangeFrom tokens waiting enclosing = (arrangeFrom rest waiting enclosing).prepend output

namespace Emits

variable {waiting : List Operator} {tokens output rest : List Token}

theorem refl (waiting : List Operator) (tokens : List Token) : Emits waiting tokens [] tokens :=
  fun _ => rfl

theorem trans {middle later : List Token} (h : Emits waiting tokens output middle)
    (h' : Emits waiting middle later rest) : Emits waiting tokens (output ++ later) rest := by
  intro enclosing
  rw [h enclosing, h' enclosing, Arrangement.prepend_prepend]

theorem number (waiting : List Operator) (n : Number) (rest : List Token) :
    Emits waiting (.number n :: rest) [.number n] rest :=
  fun enclosing => arrangeFrom_number n rest waiting enclosing

/-- A group emits what is in it, whatever waits outside. -/
theorem group {p q : Paren} (h : Emits [] tokens output (.rightParen q :: rest))
    (waiting : List Operator) : Emits waiting (.leftParen p :: tokens) output rest := by
  intro enclosing
  rw [arrangeFrom_leftParen, h (waiting :: enclosing), arrangeFrom_rightParen_cons]
  simp

/-- An operator that stands before its operand follows what its operand emits. -/
theorem prefixed {op : Operator} (hop : op.isPrefixed = true)
    (h : Emits (op :: waiting) tokens output rest) (hr : Releases op rest) :
    Emits waiting (.operator op :: tokens) (output ++ [.operator op]) rest := by
  intro enclosing
  rw [arrangeFrom_of_isPrefixed hop, h enclosing, arrangeFrom_of_releases hr,
    Arrangement.prepend_prepend]

/-- An operator that stands behind its left operand, and binds tighter than what waits, follows
what its right operand emits. -/
theorem binary {op : Operator} (hop : op.isPrefixed = false)
    (hw : ∀ first ∈ waiting.head?, first.precedence < op.precedence)
    (h : Emits (op :: waiting) tokens output rest) (hr : Releases op rest) :
    Emits waiting (.operator op :: tokens) (output ++ [.operator op]) rest := by
  intro enclosing
  rw [arrangeFrom_of_binds hop hw, h enclosing, arrangeFrom_of_releases hr,
    Arrangement.prepend_prepend]

/-- Tokens that emit all there is are in postfix order then, and leave no note. -/
theorem arrange_eq (h : Emits [] tokens output []) : arrange tokens = ⟨output, []⟩ := by
  rw [arrange, h []]
  simp [arrangeFrom, Arrangement.prepend]

end Emits

end Calculator
