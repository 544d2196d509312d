import Calculator.Proofs.Evaluation.Stack
import Calculator.Proofs.Text.Replacement

/-!
# Expressions by their grammar

Well-formed expressions are derived by four rules:

    sum     → sum (+ | -) product | product
    product → product (* | / | %) power | power
    power   → power ^ unary | unary
    unary   → - unary | √ unary | ( sum ) | literal

A `Derivation n` is a derivation tree of the nonterminal `n`.  It has a spelling, its tokens, its
tokens in postfix order and a value, which is computed from the bottom up: every binary operator
takes what the tree has on its left and on its right, and a minus sign negates or subtracts as the
tree says.  `Derivation.outcome` is what it should evaluate to: its value or, if a literal is
malformed, the leftmost such literal.

The tokens are what the spelling is cut into (`Derivation.tokensFrom_spelling`).
-/

namespace Calculator

/-! ### The rules -/

/-- The nonterminals of the grammar, the one that binds least first. -/
inductive Nonterminal where
  | sum
  | product
  | power
  | unary
deriving DecidableEq

namespace Nonterminal

/-- The nonterminal of the operands on the right. -/
def next : Nonterminal → Nonterminal
  | sum => product
  | product => power
  | power | unary => unary

/-- The precedence of the operators that a nonterminal stands for. -/
def precedence : Nonterminal → Int
  | sum => 1
  | product => 2
  | power | unary => 3

theorem precedence_le_next (n : Nonterminal) : n.precedence ≤ n.next.precedence := by
  cases n <;> decide

/-- The precedence rises up to the powers; that of the operators of one operand is the same. -/
theorem precedence_lt_next {n : Nonterminal} (h : n.next ≠ unary) :
    n.precedence < n.next.precedence := by
  cases n with
  | sum | product => decide
  | power | unary => exact absurd rfl h

end Nonterminal

/-- The operators of two operands. -/
inductive BinaryKind where
  | add
  | sub
  | mul
  | div
  | percent
  | pow

namespace BinaryKind

/-- What the operator computes, by its kind. -/
def kind : BinaryKind → OperatorKind
  | add => .add
  | sub => .sub
  | mul => .mul
  | div => .div
  | percent => .percent
  | pow => .pow

/-- The character of the operator. -/
def symbol : BinaryKind → Char
  | add => '+'
  | sub => '-'
  | mul => '*'
  | div => '/'
  | percent => '%'
  | pow => '^'

/-- The nonterminal that the operator builds. -/
def target : BinaryKind → Nonterminal
  | add | sub => .sum
  | mul | div | percent => .product
  | pow => .power

/-- What the operator computes. -/
def apply : BinaryKind → Binary64 → Binary64 → Binary64
  | add => .add
  | sub => .sub
  | mul => .mul
  | div => .div
  | percent => .percent
  | pow => .pow

theorem binary?_kind (op : BinaryKind) : op.kind.binary? = some op.apply := by cases op <;> rfl

theorem isPrefixed_kind (op : BinaryKind) : (Operator.standard op.kind).isPrefixed = false := by
  cases op <;> rfl

theorem precedence_kind (op : BinaryKind) :
    (Operator.standard op.kind).precedence = op.target.precedence := by
  cases op <;> rfl

/-- A minus sign subtracts where no operand is due. -/
theorem charToken?_symbol (op : BinaryKind) :
    charToken? false op.symbol = some (.ofKind op.kind) := by
  cases op <;> rfl

theorem isNumberChar_symbol (op : BinaryKind) : isNumberChar op.symbol = false := by
  cases op <;> decide

end BinaryKind

/-- The operators of one operand, which stand before it. -/
inductive UnaryKind where
  | neg
  | sqrt

namespace UnaryKind

/-- What the operator computes, by its kind. -/
def kind : UnaryKind → OperatorKind
  | neg => .neg
  | sqrt => .sqrt

/-- The character of the operator. -/
def symbol : UnaryKind → Char
  | neg => '-'
  | sqrt => '√'

/-- What the operator computes. -/
def apply : UnaryKind → Binary64 → Binary64
  | neg => .neg
  | sqrt => .sqrt

theorem unary?_kind (op : UnaryKind) : op.kind.unary? = some op.apply := by cases op <;> rfl

theorem isPrefixed_kind (op : UnaryKind) : (Operator.standard op.kind).isPrefixed = true := by
  cases op <;> rfl

theorem precedence_kind (op : UnaryKind) :
    (Operator.standard op.kind).precedence = Nonterminal.unary.precedence := by
  cases op <;> rfl

/-- A minus sign negates where an operand is due. -/
theorem charToken?_symbol (op : UnaryKind) :
    charToken? true op.symbol = some (.ofKind op.kind) := by
  cases op <;> rfl

theorem isNumberChar_symbol (op : UnaryKind) : isNumberChar op.symbol = false := by
  cases op <;> decide

end UnaryKind

/-- A run of digits of any script and points, which need not be a number. -/
structure Literal where
  /-- The characters of the run. -/
  text : Text
  /-- There is at least one. -/
  ne_nil : text ≠ []
  /-- Each is a digit or a point. -/
  isNumberChar_of_mem : ∀ c ∈ text, isNumberChar c = true

/-- A derivation tree of a nonterminal. -/
inductive Derivation : Nonterminal → Type where
  /-- The operand of an operator may be built by operators that bind tighter. -/
  | tighter {n : Nonterminal} (h : n ≠ .unary) (d : Derivation n.next) : Derivation n
  /-- An operator of two operands, of which the left one may be built by the same operators. -/
  | binary (op : BinaryKind) (left : Derivation op.target) (right : Derivation op.target.next) :
      Derivation op.target
  /-- An operator of one operand. -/
  | prefixed (op : UnaryKind) (operand : Derivation .unary) : Derivation .unary
  /-- A group in parentheses. -/
  | group (inner : Derivation .sum) : Derivation .unary
  /-- A literal. -/
  | literal (l : Literal) : Derivation .unary

namespace Derivation

variable {n : Nonterminal}

/-! ### What a tree stands for -/

/-- The characters of an expression, without blanks. -/
def spelling {n : Nonterminal} : Derivation n → Text
  | tighter _ d => d.spelling
  | binary op left right => left.spelling ++ op.symbol :: right.spelling
  | prefixed op operand => op.symbol :: operand.spelling
  | group inner => '(' :: inner.spelling ++ [')']
  | literal l => l.text

/-- The tokens of an expression, with every minus sign read as the tree says. -/
def tokens {n : Nonterminal} : Derivation n → List Token
  | tighter _ d => d.tokens
  | binary op left right => left.tokens ++ .ofKind op.kind :: right.tokens
  | prefixed op operand => .ofKind op.kind :: operand.tokens
  | group inner => .openParen :: inner.tokens ++ [.closeParen]
  | literal l => [.ofLiteral l.text]

/-- The tokens in postfix order: every operator follows the operands that the tree gives it. -/
def postorder {n : Nonterminal} : Derivation n → List Token
  | tighter _ d => d.postorder
  | binary op left right => left.postorder ++ right.postorder ++ [.ofKind op.kind]
  | prefixed op operand => operand.postorder ++ [.ofKind op.kind]
  | group inner => inner.postorder
  | literal l => [.ofLiteral l.text]

/-- The literals of an expression, from left to right. -/
def literals {n : Nonterminal} : Derivation n → List Text
  | tighter _ d => d.literals
  | binary _ left right => left.literals ++ right.literals
  | prefixed _ operand => operand.literals
  | group inner => inner.literals
  | literal l => [l.text]

/-- The value of an expression, from the bottom of the tree up. -/
def value {n : Nonterminal} : Derivation n → Binary64
  | tighter _ d => d.value
  | binary op left right => op.apply left.value right.value
  | prefixed op operand => op.apply operand.value
  | group inner => inner.value
  | literal l => literalValue l.text

/-- What an expression ends with: its value or, if some literal is malformed, the failure of the
leftmost such literal. -/
def outcome (d : Derivation n) : Except Failure Binary64 :=
  match d.literals.find? isMalformed with
  | some run => .error (.malformedNumber run)
  | none => .ok d.value

/-! ### How it is spelled -/

theorem isPlain_of_mem_symbols : ∀ c ∈ symbols, IsPlain c := by
  simp [symbols, IsPlain, plain, isBlank]

theorem isPlain_of_isNumberChar {c : Char} (hc : isNumberChar c = true) : IsPlain c := by
  have h₁ : c ≠ '×' := ne_of_isNumberChar hc (by decide)
  have h₂ : c ≠ '÷' := ne_of_isNumberChar hc (by decide)
  have h₃ : c ≠ '−' := ne_of_isNumberChar hc (by decide)
  exact ⟨by simp [plain, h₁, h₂, h₃], isBlank_of_isNumberChar hc⟩

/-- A spelling consists of digits, points, operators and parentheses. -/
theorem mem_spelling (d : Derivation n) :
    ∀ c ∈ d.spelling, isNumberChar c = true ∨ c ∈ symbols := by
  induction d with
  | tighter h d ih => exact ih
  | binary op left right ihl ihr =>
    intro c hc
    rcases List.mem_append.mp hc with hc | hc
    · exact ihl c hc
    rcases List.mem_cons.mp hc with rfl | hc
    · exact .inr (by cases op <;> decide)
    · exact ihr c hc
  | prefixed op operand ih =>
    intro c hc
    rcases List.mem_cons.mp hc with rfl | hc
    · exact .inr (by cases op <;> decide)
    · exact ih c hc
  | group inner ih =>
    intro c hc
    rcases List.mem_cons.mp hc with rfl | hc
    · exact .inr (by decide)
    rcases List.mem_append.mp hc with hc | hc
    · exact ih c hc
    · obtain rfl := List.mem_singleton.mp hc
      exact .inr (by decide)
  | literal l => exact fun c hc => .inl (l.isNumberChar_of_mem c hc)

/-- Sanitizing leaves a spelling as it is. -/
theorem isPlain_of_mem_spelling (d : Derivation n) : ∀ c ∈ d.spelling, IsPlain c := by
  intro c hc
  rcases d.mem_spelling c hc with h | h
  · exact isPlain_of_isNumberChar h
  · exact isPlain_of_mem_symbols c h

/-! ### How it is cut into tokens -/

/-- Where an operand is due, a spelling is cut into the tokens of its tree, and then no operand is
due any more. -/
theorem tokensFrom_spelling_append (d : Derivation n) {rest : Text} (hrest : EndsRun rest) :
    tokensFrom true (d.spelling ++ rest) = d.tokens ++ tokensFrom false rest := by
  induction d generalizing rest with
  | tighter h d ih => exact ih hrest
  | binary op left right ihl ihr =>
    -- behind its left operand the operator stands where no operand is due
    have hleft : tokensFrom true (left.spelling ++ op.symbol :: (right.spelling ++ rest)) =
        left.tokens ++ tokensFrom false (op.symbol :: (right.spelling ++ rest)) :=
      ihl (endsRun_cons op.isNumberChar_symbol _)
    have hsymbol : tokensFrom false (op.symbol :: (right.spelling ++ rest)) =
        .ofKind op.kind :: tokensFrom true (right.spelling ++ rest) :=
      tokensFrom_symbol op.isNumberChar_symbol op.charToken?_symbol _
    rw [spelling, tokens, List.append_assoc, List.cons_append, hleft, hsymbol, ihr hrest,
      List.append_assoc, List.cons_append]
  | prefixed op operand ih =>
    have hsymbol : tokensFrom true (op.symbol :: (operand.spelling ++ rest)) =
        .ofKind op.kind :: tokensFrom true (operand.spelling ++ rest) :=
      tokensFrom_symbol op.isNumberChar_symbol op.charToken?_symbol _
    rw [spelling, tokens, List.cons_append, hsymbol, ih hrest, List.cons_append]
  | group inner ih =>
    have hclose : isNumberChar ')' = false := by decide
    have hstart : tokensFrom true ('(' :: (inner.spelling ++ ')' :: rest)) =
        .openParen :: tokensFrom true (inner.spelling ++ ')' :: rest) :=
      tokensFrom_symbol (by decide) rfl _
    have hinner : tokensFrom true (inner.spelling ++ ')' :: rest) =
        inner.tokens ++ tokensFrom false (')' :: rest) := ih (endsRun_cons hclose rest)
    have hend : tokensFrom false (')' :: rest) = .closeParen :: tokensFrom false rest :=
      tokensFrom_symbol hclose rfl rest
    rw [spelling, tokens, List.cons_append, List.cons_append, List.append_assoc,
      List.singleton_append, hstart, hinner, hend, List.cons_append, List.cons_append,
      List.append_assoc, List.singleton_append]
  | literal l => exact tokensFrom_run l.ne_nil l.isNumberChar_of_mem hrest true

/-- A spelling is cut into the tokens of its tree. -/
theorem tokenize_spelling (d : Derivation n) : tokenize d.spelling = d.tokens := by
  have h := d.tokensFrom_spelling_append endsRun_nil
  rwa [List.append_nil, tokensFrom_nil, List.append_nil] at h

end Derivation

end Calculator
