import Calculator.Proofs.Arrangement.Conservation

/-!
# Tokens in their context

Whatever stands before some tokens emits something and leaves operators waiting, and the rest is
arranged from there (`exists_arrangeFrom_append`).

A group in parentheses takes no notice of what is left there.  If the parentheses within are
balanced, nothing that waits outside is released before the group ends, so the group emits what its
inside gives on its own, without a gap, and leaves behind what it found (`Emits.balanced_group`).
It does as a number does, and a number in its place tells where its tokens go
(`arrange_balanced_group`).
-/

namespace Calculator

/-! ### One arrangement behind another -/

namespace Arrangement

instance : Append Arrangement where
  append first rest := ⟨first.tokens ++ rest.tokens, first.notes ++ rest.notes⟩

variable (first rest : Arrangement)

@[simp] theorem tokens_append : (first ++ rest).tokens = first.tokens ++ rest.tokens := rfl

@[simp] theorem notes_append : (first ++ rest).notes = first.notes ++ rest.notes := rfl

theorem prepend_append (tokens : List Token) :
    first.prepend tokens ++ rest = (first ++ rest).prepend tokens := by
  show Arrangement.mk (tokens ++ first.tokens ++ rest.tokens) _ = _
  rw [List.append_assoc]
  rfl

theorem notedFirst_append (note : Note) :
    first.notedFirst note ++ rest = (first ++ rest).notedFirst note := rfl

end Arrangement

/-- What stands before other tokens leaves some operators waiting, from where these go on. -/
theorem exists_arrangeFrom_append (tokens : List Token) (waiting : List Operator)
    (enclosing : List (List Operator)) :
    ∃ front waiting' enclosing', ∀ rest, arrangeFrom (tokens ++ rest) waiting enclosing =
      front ++ arrangeFrom rest waiting' enclosing' := by
  fun_induction arrangeFrom tokens waiting enclosing with
  | case1 waiting enclosing => exact ⟨⟨[], []⟩, waiting, enclosing, fun rest => rfl⟩
  | case2 n tokens waiting enclosing ih =>
    obtain ⟨front, waiting', enclosing', h⟩ := ih
    refine ⟨front.prepend [.number n], waiting', enclosing', fun rest => ?_⟩
    rw [List.cons_append, arrangeFrom_number, h, Arrangement.prepend_append]
  | case3 p tokens waiting enclosing ih =>
    obtain ⟨front, waiting', enclosing', h⟩ := ih
    refine ⟨front, waiting', enclosing', fun rest => ?_⟩
    rw [List.cons_append, arrangeFrom_leftParen, h]
  | case4 p tokens waiting ih =>
    obtain ⟨front, waiting', enclosing', h⟩ := ih
    refine ⟨(front.notedFirst .unmatchedClose).prepend (released waiting), waiting', enclosing',
      fun rest => ?_⟩
    rw [List.cons_append, arrangeFrom, h, Arrangement.prepend_append,
      Arrangement.notedFirst_append]
  | case5 p tokens waiting outer enclosing ih =>
    obtain ⟨front, waiting', enclosing', h⟩ := ih
    refine ⟨front.prepend (released waiting), waiting', enclosing', fun rest => ?_⟩
    rw [List.cons_append, arrangeFrom_rightParen_cons, h, Arrangement.prepend_append]
  | case6 op tokens waiting enclosing hop ih =>
    obtain ⟨front, waiting', enclosing', h⟩ := ih
    refine ⟨front, waiting', enclosing', fun rest => ?_⟩
    rw [List.cons_append, arrangeFrom_of_isPrefixed hop, h]
  | case7 op tokens waiting enclosing hop ih =>
    obtain ⟨front, waiting', enclosing', h⟩ := ih
    refine ⟨front.prepend (released (waiting.takeWhile (bindsBefore op))), waiting', enclosing',
      fun rest => ?_⟩
    rw [List.cons_append, arrangeFrom_of_not_isPrefixed (eq_false_of_ne_true hop), h,
      Arrangement.prepend_append]

/-! ### Balanced parentheses -/

/-- The parentheses are balanced behind `depth` groups that have started before: no group ends that
has not started, and in the end none is left open. -/
def balancedFrom (depth : ℕ) : List Token → Bool
  | [] => depth == 0
  | .leftParen _ :: rest => balancedFrom (depth + 1) rest
  | .rightParen _ :: rest =>
    match depth with
    | 0 => false
    | depth + 1 => balancedFrom depth rest
  | .number _ :: rest | .operator _ :: rest => balancedFrom depth rest

/-- The parentheses among some tokens are balanced. -/
def isBalanced (tokens : List Token) : Bool := balancedFrom 0 tokens

/-- By the time the groups that it starts in have ended, a stretch of balanced parentheses has not
touched the enclosing ones. -/
theorem exists_arrangeFrom_balanced {tokens : List Token} {groups : List (List Operator)}
    (h : balancedFrom groups.length tokens = true) (waiting : List Operator) :
    ∃ output waiting', ∀ rest enclosing,
      arrangeFrom (tokens ++ rest) waiting (groups ++ enclosing) =
        (arrangeFrom rest waiting' enclosing).prepend output := by
  induction tokens generalizing groups waiting with
  | nil =>
    obtain rfl : groups = [] := List.length_eq_zero_iff.mp (eq_of_beq h)
    exact ⟨[], waiting, fun rest enclosing => rfl⟩
  | cons t tokens ih =>
    cases t with
    | number n =>
      obtain ⟨output, waiting', h'⟩ := ih h waiting
      refine ⟨.number n :: output, waiting', fun rest enclosing => ?_⟩
      rw [List.cons_append, arrangeFrom_number, h', Arrangement.prepend_prepend]
      rfl
    | leftParen p =>
      have h : balancedFrom (waiting :: groups).length tokens = true := h
      obtain ⟨output, waiting', h'⟩ := ih h []
      refine ⟨output, waiting', fun rest enclosing => ?_⟩
      rw [List.cons_append, arrangeFrom_leftParen, ← List.cons_append, h']
    | rightParen p =>
      cases groups with
      | nil => exact absurd h Bool.false_ne_true
      | cons outer groups =>
        obtain ⟨output, waiting', h'⟩ := ih h outer
        refine ⟨released waiting ++ output, waiting', fun rest enclosing => ?_⟩
        rw [List.cons_append, List.cons_append, arrangeFrom_rightParen_cons, h',
          Arrangement.prepend_prepend]
    | operator op =>
      cases hop : op.isPrefixed with
      | true =>
        obtain ⟨output, waiting', h'⟩ := ih h (op :: waiting)
        refine ⟨output, waiting', fun rest enclosing => ?_⟩
        rw [List.cons_append, arrangeFrom_of_isPrefixed hop, h']
      | false =>
        obtain ⟨output, waiting', h'⟩ := ih h (op :: waiting.dropWhile (bindsBefore op))
        refine ⟨released (waiting.takeWhile (bindsBefore op)) ++ output, waiting',
          fun rest enclosing => ?_⟩
        rw [List.cons_append, arrangeFrom_of_not_isPrefixed hop, h', Arrangement.prepend_prepend]

/-- The end of a group releases all that waits in it, or if it has not started all that waits. -/
theorem arrangeFrom_rightParen (q : Paren) (rest : List Token) (waiting : List Operator)
    (enclosing : List (List Operator)) :
    arrangeFrom (.rightParen q :: rest) waiting enclosing =
      (arrangeFrom (.rightParen q :: rest) [] enclosing).prepend (released waiting) := by
  cases enclosing with
  | nil => simp [arrangeFrom]
  | cons outer enclosing => simp

/-- **A group in parentheses emits what is in it**, whatever waits outside and whatever follows. -/
theorem Emits.balanced_group {inner : List Token} (h : isBalanced inner = true) (p q : Paren)
    (waiting : List Operator) (rest : List Token) :
    Emits waiting (.leftParen p :: (inner ++ .rightParen q :: rest)) (arrange inner).tokens
      rest := by
  have h : balancedFrom ([] : List (List Operator)).length inner = true := h
  obtain ⟨output, waiting', h⟩ := exists_arrangeFrom_balanced h []
  have hinner : (arrange inner).tokens = output ++ released waiting' := by
    have halone := h [] []
    rw [List.append_nil, List.nil_append] at halone
    rw [arrange, halone]
    simp [arrangeFrom]
  have hemits : Emits [] (inner ++ .rightParen q :: rest) (arrange inner).tokens
      (.rightParen q :: rest) := by
    intro enclosing
    rw [hinner, ← List.nil_append enclosing, h, List.nil_append, arrangeFrom_rightParen,
      Arrangement.prepend_prepend]
  exact hemits.group waiting

/-! ### A number in the place of a group -/

/-- Tokens that emit something and nothing else put that into the output of what is around them. -/
theorem exists_arrange_append (before behind : List Token) :
    ∃ front back : Arrangement, arrange (before ++ behind) = front ++ back ∧
      ∀ tokens output, (∀ waiting, Emits waiting (tokens ++ behind) output behind) →
        arrange (before ++ (tokens ++ behind)) = front ++ back.prepend output := by
  obtain ⟨front, waiting, enclosing, h⟩ := exists_arrangeFrom_append before [] []
  refine ⟨front, arrangeFrom behind waiting enclosing, h behind, ?_⟩
  intro tokens output hemits
  rw [arrange, h, hemits waiting enclosing]

/-- The tokens with others in the place of one of them. -/
def substitute (t : Token) (others tokens : List Token) : List Token :=
  tokens.flatMap fun x => if x = t then others else [x]

theorem substitute_of_notMem {t : Token} {tokens : List Token} (h : t ∉ tokens)
    (others : List Token) : substitute t others tokens = tokens := by
  induction tokens with
  | nil => rfl
  | cons x tokens ih =>
    rw [List.mem_cons, not_or] at h
    obtain ⟨hx, htokens⟩ := h
    show (if x = t then others else [x]) ++ substitute t others tokens = x :: tokens
    rw [if_neg (Ne.symm hx), ih htokens, List.singleton_append]

theorem substitute_append_cons {t : Token} {front back : List Token} (hfront : t ∉ front)
    (hback : t ∉ back) (others : List Token) :
    substitute t others (front ++ t :: back) = front ++ (others ++ back) := by
  have happend : substitute t others (front ++ t :: back) =
      substitute t others front ++ (others ++ substitute t others back) := by
    simp [substitute]
  rw [happend, substitute_of_notMem hfront, substitute_of_notMem hback]

/-- **A balanced group is arranged as a block of its own**: where a number that stands nowhere else
would come out in the place of the group, the arranged inside of the group comes out, whole and
without a gap.  What stands around it may be any tokens, with parentheses that are not balanced. -/
theorem arrange_balanced_group {inner : List Token} (h : isBalanced inner = true) {n : Number}
    {before behind : List Token} (hbefore : .number n ∉ before) (hbehind : .number n ∉ behind)
    (p q : Paren) :
    (arrange (before ++ [.leftParen p] ++ inner ++ [.rightParen q] ++ behind)).tokens =
        substitute (.number n) (arrange inner).tokens
          (arrange (before ++ [.number n] ++ behind)).tokens ∧
      (arrange (before ++ [.leftParen p] ++ inner ++ [.rightParen q] ++ behind)).notes =
        (arrange (before ++ [.number n] ++ behind)).notes := by
  obtain ⟨front, back, haround, h'⟩ := exists_arrange_append before behind
  have hgroup : arrange (before ++ [.leftParen p] ++ inner ++ [.rightParen q] ++ behind) =
      front ++ back.prepend (arrange inner).tokens := by
    rw [← h' (.leftParen p :: (inner ++ [.rightParen q]))]
    · simp
    · intro waiting
      have hemits := Emits.balanced_group h p q waiting behind
      rwa [← List.singleton_append (l := behind), ← List.append_assoc] at hemits
  have hnumber : arrange (before ++ [.number n] ++ behind) = front ++ back.prepend [.number n] := by
    rw [List.append_assoc]
    exact h' [.number n] [.number n] fun waiting => .number waiting n behind
  -- the number is nowhere in what the tokens around it emit
  have hmem {t : Token} (ht : t ∈ front.tokens ++ back.tokens) : t ∈ before ++ behind := by
    rw [← Arrangement.tokens_append, ← haround] at ht
    exact (mem_of_mem_arrange ht).1
  have hnone : .number n ∉ before ++ behind := by
    rw [List.mem_append]
    rintro (hmem | hmem)
    · exact hbefore hmem
    · exact hbehind hmem
  have hfront : .number n ∉ front.tokens := fun hn => hnone (hmem (List.mem_append_left _ hn))
  have hback : .number n ∉ back.tokens := fun hn => hnone (hmem (List.mem_append_right _ hn))
  rw [hgroup, hnumber]
  exact ⟨(substitute_append_cons hfront hback _).symm, rfl⟩

/-- The group stands behind an end without a start and before a start without an end, where the sum
in it is what is squared. -/
theorem arrange_balanced_group_squared :
    let inner : List Token := [.ofLiteral ['1'], .ofKind .add, .openParen, .ofLiteral ['2'],
      .ofKind .mul, .ofLiteral ['3'], .closeParen]
    let before : List Token := [.ofLiteral ['5'], .ofKind .sub, .closeParen, .ofKind .neg]
    let behind : List Token := [.ofKind .pow, .openParen, .ofLiteral ['2']]
    isBalanced inner = true ∧
      (arrange (before ++ [.number ⟨some ['4'], none⟩] ++ behind)).tokens =
        [.ofLiteral ['5'], .ofKind .sub, .ofLiteral ['4'], .ofKind .neg, .ofLiteral ['2'],
          .ofKind .pow] ∧
      (arrange (before ++ [.openParen] ++ inner ++ [.closeParen] ++ behind)).tokens =
        [.ofLiteral ['5'], .ofKind .sub, .ofLiteral ['1'], .ofLiteral ['2'], .ofLiteral ['3'],
          .ofKind .mul, .ofKind .add, .ofKind .neg, .ofLiteral ['2'], .ofKind .pow] := by
  intro inner before behind
  have h : isBalanced inner = true := rfl
  have hbefore : .number ⟨some ['4'], none⟩ ∉ before := by decide
  have hbehind : .number ⟨some ['4'], none⟩ ∉ behind := by decide
  have hgroup := (arrange_balanced_group h hbefore hbehind ⟨['('], none, none⟩
    ⟨[')'], none, none⟩).1
  exact ⟨h, rfl, hgroup⟩

end Calculator
