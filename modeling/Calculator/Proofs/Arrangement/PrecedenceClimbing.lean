import Calculator.Proofs.Arrangement.Emission

/-!
# Precedence climbing

A second way to read an expression, by recursive descent: `Climbing.climb? least` reads an operand
and then goes on with every operator behind it that binds tighter than the level `least`, reading
the right operand of each at the level of that operator; a whole list or group is read without a
level, which is below every precedence.  It gives a tree, and `arrange` gives the tokens of that
tree in postorder (`arrange_eq_postorder_parse`), for every well-formed list (`IsExpression`) and
for any precedences.

An operator that stands before its operand may bind less than those around it, so the waiting
operators need not bind less and less from the latest on.  It does not matter: all that climbing
at `least` asks is that the latest of them binds no tighter than `least` (`IsGuarded`), and what
it leaves, the `Remainder`, releases the operators that were put on top.
-/

namespace Calculator

/-- An expression as a tree of numbers and operators. -/
inductive ExpressionTree where
  /-- A number. -/
  | number (n : Number)
  /-- An operator that stands before its only operand. -/
  | unary (op : Operator) (operand : ExpressionTree)
  /-- An operator that stands between its operands. -/
  | binary (op : Operator) (left right : ExpressionTree)

namespace ExpressionTree

/-- The tokens of a tree, every operator behind its operands. -/
def postorder : ExpressionTree → List Token
  | number n => [.number n]
  | unary op operand => operand.postorder ++ [.operator op]
  | binary op left right => left.postorder ++ right.postorder ++ [.operator op]

end ExpressionTree

namespace Climbing

/-- A precedence is above the level `least`; without a level, any precedence is. -/
def isAbove (least : Option Int) (precedence : Int) : Bool :=
  least.all fun level => decide (level < precedence)

@[simp] theorem isAbove_none (precedence : Int) : isAbove none precedence = true := rfl

@[simp] theorem isAbove_some (level precedence : Int) :
    isAbove (some level) precedence = decide (level < precedence) := rfl

/-- What is not above a level is below all that is. -/
theorem lt_of_isAbove {least : Option Int} {low high : Int} (hlow : isAbove least low = false)
    (hhigh : isAbove least high = true) : low < high := by
  cases least with
  | none => simp at hlow
  | some level =>
    have hlow : ¬level < low := of_decide_eq_false hlow
    have hhigh : level < high := of_decide_eq_true hhigh
    omega

mutual

/-- Reads one operand from the front of some tokens, and gives what is left of them. -/
def operand? (tokens : List Token) :
    Option (ExpressionTree × { rest : List Token // rest.length < tokens.length }) :=
  match tokens with
  | .number n :: rest => some (.number n, ⟨rest, Nat.lt_succ_self _⟩)
  | .leftParen _ :: inner => do
    let (tree, ⟨rest, h⟩) ← climb? none inner
    match rest, h with
    | .rightParen _ :: rest, h => some (tree, ⟨rest, Nat.lt_succ_of_lt (Nat.lt_of_succ_lt h)⟩)
    | _, _ => none
  | .operator op :: rest =>
    if op.isPrefixed then do
      let (tree, ⟨rest, h⟩) ← climb? op.precedence rest
      some (.unary op tree, ⟨rest, Nat.lt_succ_of_lt h⟩)
    else
      none
  | _ => none
termination_by (tokens.length, 0)

/-- Reads an operand, and with it all operators behind it that bind tighter than `least`. -/
def climb? (least : Option Int) (tokens : List Token) :
    Option (ExpressionTree × { rest : List Token // rest.length < tokens.length }) := do
  let (left, ⟨rest, h⟩) ← operand? tokens
  let (tree, ⟨rest, h'⟩) ← extend? least left rest
  some (tree, ⟨rest, Nat.lt_of_le_of_lt h' h⟩)
termination_by (tokens.length, 1)

/-- Goes on behind the operand `left` as long as there are operators that bind tighter than
`least`. -/
def extend? (least : Option Int) (left : ExpressionTree) (tokens : List Token) :
    Option (ExpressionTree × { rest : List Token // rest.length ≤ tokens.length }) :=
  match tokens with
  | .operator op :: rest =>
    if op.isPrefixed = false ∧ isAbove least op.precedence = true then do
      let (right, ⟨rest, h⟩) ← climb? op.precedence rest
      let (tree, ⟨rest, h'⟩) ← extend? least (.binary op left right) rest
      some (tree, ⟨rest, Nat.le_succ_of_le (Nat.le_of_lt (Nat.lt_of_le_of_lt h' h))⟩)
    else
      some (left, ⟨.operator op :: rest, Nat.le_refl _⟩)
  | rest => some (left, ⟨rest, Nat.le_refl _⟩)
termination_by (tokens.length, 0)

end

/-- What was read and what is left, without the proof that the latter is shorter. -/
def result {P : List Token → Prop}
    (reading : Option (ExpressionTree × { rest : List Token // P rest })) :
    Option (ExpressionTree × List Token) :=
  reading.map fun (tree, rest) => (tree, rest.val)

theorem result_eq_some {P : List Token → Prop}
    {reading : Option (ExpressionTree × { rest : List Token // P rest })} {tree : ExpressionTree}
    {rest : List Token} (h : result reading = some (tree, rest)) :
    ∃ hrest : P rest, reading = some (tree, ⟨rest, hrest⟩) := by
  obtain ⟨⟨tree, rest, hrest⟩, hreading, heq⟩ := Option.map_eq_some_iff.mp h
  obtain ⟨rfl, rfl⟩ := Prod.mk.inj heq
  exact ⟨hrest, hreading⟩

theorem operand?_number (n : Number) (rest : List Token) :
    result (operand? (.number n :: rest)) = some (.number n, rest) := by
  rw [operand?]
  rfl

theorem operand?_group {inner rest : List Token} {tree : ExpressionTree} {q : Paren}
    (h : result (climb? none inner) = some (tree, .rightParen q :: rest)) (p : Paren) :
    result (operand? (.leftParen p :: inner)) = some (tree, rest) := by
  obtain ⟨hrest, h⟩ := result_eq_some h
  rw [operand?, h]
  rfl

theorem operand?_prefixed {op : Operator} (hop : op.isPrefixed = true) {tokens rest : List Token}
    {tree : ExpressionTree} (h : result (climb? op.precedence tokens) = some (tree, rest)) :
    result (operand? (.operator op :: tokens)) = some (.unary op tree, rest) := by
  obtain ⟨hrest, h⟩ := result_eq_some h
  rw [operand?, if_pos hop, h]
  rfl

theorem climb?_eq {least : Option Int} {tokens middle rest : List Token}
    {left tree : ExpressionTree} (h : result (operand? tokens) = some (left, middle))
    (h' : result (extend? least left middle) = some (tree, rest)) :
    result (climb? least tokens) = some (tree, rest) := by
  obtain ⟨hmiddle, h⟩ := result_eq_some h
  obtain ⟨hrest, h'⟩ := result_eq_some h'
  rw [climb?, h]
  simp [h', result]

theorem extend?_binary {op : Operator} (hop : op.isPrefixed = false) {least : Option Int}
    (habove : isAbove least op.precedence = true) {left right tree : ExpressionTree}
    {tokens middle rest : List Token}
    (h : result (climb? op.precedence tokens) = some (right, middle))
    (h' : result (extend? least (.binary op left right) middle) = some (tree, rest)) :
    result (extend? least left (.operator op :: tokens)) = some (tree, rest) := by
  obtain ⟨hmiddle, h⟩ := result_eq_some h
  obtain ⟨hrest, h'⟩ := result_eq_some h'
  rw [extend?, if_pos ⟨hop, habove⟩, h]
  simp [h', result]

end Climbing

/-! ### Well-formed lists of tokens -/

mutual

/-- An operand: a number, a well-formed list in parentheses, or an operator that stands before an
operand. -/
inductive IsOperand : List Token → Prop where
  | number (n : Number) : IsOperand [.number n]
  | group {inner : List Token} (h : IsExpression inner) (p q : Paren) :
      IsOperand (.leftParen p :: inner ++ [.rightParen q])
  | prefixed {op : Operator} (hop : op.isPrefixed = true) {operand : List Token}
      (h : IsOperand operand) : IsOperand (.operator op :: operand)

/-- A well-formed list: operands with single operators between them that do not stand before their
operand. -/
inductive IsExpression : List Token → Prop where
  | operand {tokens : List Token} (h : IsOperand tokens) : IsExpression tokens
  | join {first rest : List Token} (h : IsOperand first) {op : Operator}
      (hop : op.isPrefixed = false) (h' : IsExpression rest) :
      IsExpression (first ++ .operator op :: rest)

end

/-- What may follow an operand in a well-formed list. -/
inductive IsContinuation : List Token → Prop where
  | nil : IsContinuation []
  | operator {op : Operator} (hop : op.isPrefixed = false) {rest : List Token}
      (h : IsExpression rest) : IsContinuation (.operator op :: rest)

theorem IsOperand.append {first tail : List Token} (h : IsOperand first)
    (h' : IsContinuation tail) : IsExpression (first ++ tail) := by
  cases h' with
  | nil => simpa using IsExpression.operand h
  | operator hop hrest => exact .join h hop hrest

theorem IsExpression.exists_append {tokens : List Token} (h : IsExpression tokens) :
    ∃ first tail, tokens = first ++ tail ∧ IsOperand first ∧ IsContinuation tail := by
  cases h with
  | operand h => exact ⟨tokens, [], by simp, h, .nil⟩
  | join h hop h' => exact ⟨_, _, rfl, h, .operator hop h'⟩

/-- How a well-formed list may begin, with what is left behind that. -/
inductive Beginning : List Token → Prop where
  | number (n : Number) {tail : List Token} (h : IsContinuation tail) :
      Beginning (.number n :: tail)
  | group (p q : Paren) {inner tail : List Token} (h : IsExpression inner)
      (h' : IsContinuation tail) : Beginning (.leftParen p :: (inner ++ .rightParen q :: tail))
  | prefixed {op : Operator} (hop : op.isPrefixed = true) {rest : List Token}
      (h : IsExpression rest) : Beginning (.operator op :: rest)

theorem IsExpression.beginning {tokens : List Token} (h : IsExpression tokens) :
    Beginning tokens := by
  obtain ⟨first, tail, rfl, hfirst, htail⟩ := h.exists_append
  cases hfirst with
  | number n => exact .number n htail
  | group hinner p q => simpa using Beginning.group p q hinner htail
  | prefixed hop hoperand => exact .prefixed hop (hoperand.append htail)

/-! ### Climbing through well-formed lists -/

/-- The end of all tokens or of a group. -/
inductive IsEnd : List Token → Prop where
  | nil : IsEnd []
  | rightParen (p : Paren) (rest : List Token) : IsEnd (.rightParen p :: rest)

/-- What is left of a well-formed list once no operator binds tighter than `least`. -/
inductive Remainder (least : Option Int) : List Token → Prop where
  | nil : Remainder least []
  | operator {op : Operator} (hop : op.isPrefixed = false)
      (hnot : Climbing.isAbove least op.precedence = false) {rest : List Token}
      (h : IsExpression rest) : Remainder least (.operator op :: rest)

/-- Nothing is left where every operator binds tighter. -/
theorem Remainder.eq_nil {tokens : List Token} (h : Remainder none tokens) : tokens = [] := by
  cases h with
  | nil => rfl
  | operator _ hnot _ => simp at hnot

theorem Remainder.isContinuation {least : Option Int} {tokens : List Token}
    (h : Remainder least tokens) : IsContinuation tokens := by
  cases h with
  | nil => exact .nil
  | operator hop _ hrest => exact .operator hop hrest

theorem Remainder.releases {op : Operator} {tokens : List Token}
    (h : Remainder (some op.precedence) tokens) {stop : List Token} (hstop : IsEnd stop) :
    Releases op (tokens ++ stop) := by
  cases h with
  | nil =>
    cases hstop with
    | nil => exact .nil
    | rightParen p rest => exact .rightParen p rest
  | operator hop hnot _ =>
    have hle := Int.not_lt.mp (of_decide_eq_false hnot)
    exact .operator hop hle _

/-- The latest waiting operator, if there is one, is not above `least`. -/
def IsGuarded (least : Option Int) (waiting : List Operator) : Prop :=
  ∀ first ∈ waiting.head?, Climbing.isAbove least first.precedence = false

theorem isGuarded_nil (least : Option Int) : IsGuarded least [] := by
  intro first hfirst
  simp at hfirst

theorem isGuarded_cons (op : Operator) (waiting : List Operator) :
    IsGuarded (some op.precedence) (op :: waiting) := by
  intro first hfirst
  obtain rfl := Option.some.inj hfirst
  simp

namespace Climbing

/-- In a well-formed list, climbing stops at `tail` with a tree, and arranging emits that tree in
postorder by the time it gets there. -/
structure Agrees (least : Option Int) (tokens : List Token) (tree : ExpressionTree)
    (tail : List Token) : Prop where
  reads {stop : List Token} (hstop : IsEnd stop) :
    result (climb? least (tokens ++ stop)) = some (tree, tail ++ stop)
  emits {stop : List Token} (hstop : IsEnd stop) {waiting : List Operator}
    (hw : IsGuarded least waiting) : Emits waiting (tokens ++ stop) tree.postorder (tail ++ stop)

/-- The same for a single operand, whatever operators wait. -/
structure AgreesOnOperand (tokens : List Token) (tree : ExpressionTree) (tail : List Token) :
    Prop where
  reads {stop : List Token} (hstop : IsEnd stop) :
    result (operand? (tokens ++ stop)) = some (tree, tail ++ stop)
  emits {stop : List Token} (hstop : IsEnd stop) (waiting : List Operator) :
    Emits waiting (tokens ++ stop) tree.postorder (tail ++ stop)

/-- The same behind an operand `left`, which has been emitted before. -/
structure AgreesBehind (least : Option Int) (left : ExpressionTree) (tokens : List Token)
    (tree : ExpressionTree) (tail : List Token) : Prop where
  reads {stop : List Token} (hstop : IsEnd stop) :
    result (extend? least left (tokens ++ stop)) = some (tree, tail ++ stop)
  emits : ∃ output, tree.postorder = left.postorder ++ output ∧
    ∀ {stop : List Token}, IsEnd stop → ∀ {waiting : List Operator}, IsGuarded least waiting →
      Emits waiting (tokens ++ stop) output (tail ++ stop)

variable {least : Option Int} {left tree : ExpressionTree} {tokens middle tail : List Token}

/-! #### Operands -/

theorem AgreesOnOperand.group (h : Agrees none tokens tree []) (p q : Paren) (tail : List Token) :
    AgreesOnOperand (.leftParen p :: (tokens ++ .rightParen q :: tail)) tree tail where
  reads {stop} _ := by
    rw [List.cons_append, List.append_assoc, List.cons_append]
    exact operand?_group (h.reads (.rightParen q (tail ++ stop))) p
  emits {stop} _ waiting := by
    rw [List.cons_append, List.append_assoc, List.cons_append]
    exact (h.emits (.rightParen q (tail ++ stop)) (isGuarded_nil none)).group waiting

theorem AgreesOnOperand.prefixed {op : Operator} (hop : op.isPrefixed = true)
    (h : Agrees (some op.precedence) tokens tree tail)
    (htail : Remainder (some op.precedence) tail) :
    AgreesOnOperand (.operator op :: tokens) (.unary op tree) tail where
  reads hstop := operand?_prefixed hop (h.reads hstop)
  emits hstop waiting :=
    .prefixed hop (h.emits hstop (isGuarded_cons op waiting)) (htail.releases hstop)

/-! #### Operators behind an operand -/

theorem AgreesBehind.stop (htail : Remainder least tail) (left : ExpressionTree) :
    AgreesBehind least left tail left tail where
  reads hstop := by
    cases htail with
    | nil => cases hstop <;> simp [extend?, result]
    | operator _ hnot _ => simp [extend?, result, hnot]
  emits := ⟨[], by simp, fun _ _ _ => .refl _ _⟩

/-- An operator that binds tighter than `least` is emitted behind its right operand, which goes up
to `middle`. -/
theorem AgreesBehind.binary {op : Operator} (hop : op.isPrefixed = false)
    (habove : isAbove least op.precedence = true) {right : ExpressionTree}
    (hright : Agrees (some op.precedence) tokens right middle)
    (hmiddle : Remainder (some op.precedence) middle)
    (h : AgreesBehind least (.binary op left right) middle tree tail) :
    AgreesBehind least left (.operator op :: tokens) tree tail where
  reads hstop := extend?_binary hop habove (hright.reads hstop) (h.reads hstop)
  emits := by
    obtain ⟨output, htree, hemits⟩ := h.emits
    refine ⟨right.postorder ++ [.operator op] ++ output, ?_, fun hstop waiting hw => ?_⟩
    · simp [htree, ExpressionTree.postorder]
    · have hbinds : ∀ first ∈ waiting.head?, first.precedence < op.precedence := by
        intro first hfirst
        exact lt_of_isAbove (hw first hfirst) habove
      have hemits' := hright.emits hstop (isGuarded_cons op waiting)
      exact (Emits.binary hop hbinds hemits' (hmiddle.releases hstop)).trans (hemits hstop hw)

theorem AgreesOnOperand.agrees (h : AgreesOnOperand tokens left middle)
    (h' : AgreesBehind least left middle tree tail) : Agrees least tokens tree tail where
  reads hstop := climb?_eq (h.reads hstop) (h'.reads hstop)
  emits hstop waiting hw := by
    obtain ⟨output, htree, hemits⟩ := h'.emits
    rw [htree]
    exact (h.emits hstop waiting).trans (hemits hstop hw)

/-! #### Whole lists -/

/-- Climbing and arranging agree on the well-formed lists shorter than `length`. -/
def AgreesBelow (length : Nat) : Prop :=
  ∀ tokens : List Token, tokens.length < length → IsExpression tokens → ∀ least,
    ∃ tree tail, Agrees least tokens tree tail ∧ Remainder least tail ∧
      tail.length < tokens.length

theorem exists_agreesOnOperand (h : IsExpression tokens) (ih : AgreesBelow tokens.length) :
    ∃ tree tail, AgreesOnOperand tokens tree tail ∧ IsContinuation tail ∧
      tail.length < tokens.length := by
  cases h.beginning with
  | @number n tail htail =>
    exact ⟨.number n, tail, ⟨fun _ => operand?_number n _, fun _ waiting => .number waiting n _⟩,
      htail, by simp⟩
  | @group p q inner tail hinner htail =>
    have hlength : (.leftParen p :: (inner ++ .rightParen q :: tail) : List Token).length =
        inner.length + tail.length + 2 := by
      simp only [List.length_cons, List.length_append]
      omega
    obtain ⟨tree, rest, hagrees, hrest, -⟩ := ih inner (by omega) hinner none
    obtain rfl := hrest.eq_nil
    exact ⟨tree, tail, .group hagrees p q tail, htail, by omega⟩
  | @prefixed op hop rest hrest =>
    have hlength : rest.length < (.operator op :: rest : List Token).length := Nat.lt_succ_self _
    obtain ⟨tree, tail, hagrees, htail, hlt⟩ := ih rest hlength hrest (some op.precedence)
    exact ⟨.unary op tree, tail, .prefixed hop hagrees htail, htail.isContinuation,
      Nat.lt_trans hlt hlength⟩

theorem exists_agreesBehind (least : Option Int) (h : IsContinuation tokens)
    (ih : AgreesBelow tokens.length) (left : ExpressionTree) :
    ∃ tree tail, AgreesBehind least left tokens tree tail ∧ Remainder least tail ∧
      tail.length ≤ tokens.length := by
  -- each operator takes the remainder of its right operand, which is shorter
  induction hn : tokens.length using Nat.strongRecOn generalizing tokens left with
  | _ n ihn =>
  cases h with
  | nil => exact ⟨left, [], .stop .nil left, .nil, Nat.le_of_eq hn⟩
  | @operator op hop following hfollowing =>
    have hlength : following.length < (.operator op :: following : List Token).length :=
      Nat.lt_succ_self _
    cases habove : isAbove least op.precedence with
    | true =>
      obtain ⟨right, middle, hright, hmiddle, hshort⟩ :=
        ih following hlength hfollowing (some op.precedence)
      obtain ⟨tree, tail, hbehind, htail, hle⟩ :=
        ihn middle.length (by omega) hmiddle.isContinuation
          (fun tokens h => ih tokens (by omega)) (.binary op left right) rfl
      exact ⟨tree, tail, .binary hop habove hright hmiddle hbehind, htail, by omega⟩
    | false =>
      have hstop : Remainder least (.operator op :: following) := .operator hop habove hfollowing
      exact ⟨left, _, .stop hstop left, hstop, Nat.le_of_eq hn⟩

theorem agreesBelow (length : Nat) : AgreesBelow length := by
  induction length with
  | zero => exact fun tokens h => absurd h (Nat.not_lt_zero _)
  | succ length ih =>
    intro tokens hlength h least
    have ih' : AgreesBelow tokens.length := fun shorter hs => ih shorter (by omega)
    obtain ⟨left, middle, hleft, hmiddle, hshort⟩ := exists_agreesOnOperand h ih'
    obtain ⟨tree, tail, hbehind, htail, hle⟩ :=
      exists_agreesBehind least hmiddle (fun shorter hs => ih' shorter (by omega)) left
    exact ⟨tree, tail, hleft.agrees hbehind, htail, by omega⟩

/-- The tree of a whole list of tokens, if climbing reads all of it. -/
def parse? (tokens : List Token) : Option ExpressionTree :=
  match result (climb? none tokens) with
  | some (tree, []) => some tree
  | _ => none

end Climbing

/-- **Postfix order is the postorder of precedence climbing**: a well-formed list has a tree, and
arranging the list gives the tokens of that tree in postorder, without any note.  Precedences may be
any integers, those of operators that stand before their operand included. -/
theorem arrange_eq_postorder_parse {tokens : List Token} (h : IsExpression tokens) :
    ∃ tree, Climbing.parse? tokens = some tree ∧ arrange tokens = ⟨tree.postorder, []⟩ := by
  obtain ⟨tree, tail, hagrees, htail, -⟩ :=
    Climbing.agreesBelow (tokens.length + 1) tokens (Nat.lt_succ_self _) h none
  obtain rfl := htail.eq_nil
  have hreads := hagrees.reads .nil
  have hemits := hagrees.emits .nil (isGuarded_nil none)
  rw [List.append_nil] at hreads
  rw [List.append_nil, List.append_nil] at hemits
  refine ⟨tree, ?_, hemits.arrange_eq⟩
  rw [Climbing.parse?, hreads]
  rfl

/-- A negation that binds less than a sum takes the whole sum behind it, even behind a product
sign. -/
theorem arrange_loose_negation :
    let negation : Operator := ⟨"loose".toList, some .neg, 1, 0, none⟩
    let tokens : List Token := [.ofLiteral ['2'], .ofKind .mul, .operator negation,
      .ofLiteral ['3'], .ofKind .add, .ofLiteral ['4']]
    arrange tokens = ⟨[.ofLiteral ['2'], .ofLiteral ['3'], .ofLiteral ['4'], .ofKind .add,
      .operator negation, .ofKind .mul], []⟩ ∧
    ∃ tree, Climbing.parse? tokens = some tree ∧ arrange tokens = ⟨tree.postorder, []⟩ := by
  intro negation tokens
  have hsum : IsExpression
      [.operator negation, .ofLiteral ['3'], .ofKind .add, .ofLiteral ['4']] :=
    .join (.prefixed (by decide) (.number _)) (by decide) (.operand (.number _))
  have h : IsExpression tokens := .join (.number _) (by decide) hsum
  exact ⟨rfl, arrange_eq_postorder_parse h⟩

end Calculator
