import Calculator.Failure

/-!
# Computations that leave a trace

A `Traced ω α` is an answer of type `α` or a failure, together with the events of type `ω` that were
recorded on the way.  Computations in sequence record their events in order, and a failure ends the
sequence but keeps what was recorded before it (`bind_of_ok`, `bind_of_error`).
-/

namespace Calculator

/-- An answer or a failure, with the events recorded on the way. -/
structure Traced (ω α : Type) where
  /-- The events in the order in which they were recorded. -/
  trace : List ω
  /-- The answer, or what kept it away. -/
  outcome : Except Failure α

namespace Traced

variable {ω ω' α β : Type}

/-- An answer without any event. -/
def pure (a : α) : Traced ω α := ⟨[], .ok a⟩

/-- A failure without any event. -/
def fail (failure : Failure) : Traced ω α := ⟨[], .error failure⟩

/-- The recording of one event. -/
def record (event : ω) : Traced ω Unit := ⟨[event], .ok ()⟩

/-- The recording of some events. -/
def recordAll (events : List ω) : Traced ω Unit := ⟨events, .ok ()⟩

/-- An answer or a failure that was found without any event. -/
def ofExcept (outcome : Except Failure α) : Traced ω α := ⟨[], outcome⟩

/-- The second computation runs on the answer of the first, and only if there is one. -/
def bind (x : Traced ω α) (f : α → Traced ω β) : Traced ω β :=
  match x.outcome with
  | .ok a => ⟨x.trace ++ (f a).trace, (f a).outcome⟩
  | .error failure => ⟨x.trace, .error failure⟩

instance : Monad (Traced ω) where
  pure := pure
  bind := bind

/-- The same computation with every event seen as another. -/
def mapTrace (f : ω → ω') (x : Traced ω α) : Traced ω' α := ⟨x.trace.map f, x.outcome⟩

@[simp] theorem trace_pure (a : α) : (Pure.pure a : Traced ω α).trace = [] := rfl

@[simp] theorem outcome_pure (a : α) : (Pure.pure a : Traced ω α).outcome = .ok a := rfl

@[simp] theorem trace_fail (failure : Failure) : (fail failure : Traced ω α).trace = [] := rfl

@[simp] theorem outcome_fail (failure : Failure) :
    (fail failure : Traced ω α).outcome = .error failure := rfl

/-- An answer is handed on, and the events of both computations are recorded in order. -/
theorem bind_of_ok {x : Traced ω α} {a : α} (h : x.outcome = .ok a) (f : α → Traced ω β) :
    x >>= f = ⟨x.trace ++ (f a).trace, (f a).outcome⟩ := by
  change bind x f = _
  simp [bind, h]

/-- A failure ends the sequence and keeps the events recorded so far. -/
theorem bind_of_error {x : Traced ω α} {failure : Failure} (h : x.outcome = .error failure)
    (f : α → Traced ω β) : x >>= f = ⟨x.trace, .error failure⟩ := by
  change bind x f = _
  simp [bind, h]

@[simp] theorem fail_bind (failure : Failure) (f : α → Traced ω β) :
    (fail failure : Traced ω α) >>= f = fail failure := rfl

@[simp] theorem map_fail (f : α → β) (failure : Failure) :
    f <$> (fail failure : Traced ω α) = fail failure := rfl

@[simp] theorem ofExcept_ok (a : α) : (ofExcept (.ok a) : Traced ω α) = Pure.pure a := rfl

@[simp] theorem ofExcept_error (failure : Failure) :
    (ofExcept (.error failure) : Traced ω α) = fail failure := rfl

/-- What computations in sequence end with, apart from the events. -/
theorem outcome_bind (x : Traced ω α) (f : α → Traced ω β) :
    (x >>= f).outcome = x.outcome.bind fun a => (f a).outcome := by
  cases h : x.outcome with
  | ok a => rw [bind_of_ok h]; rfl
  | error failure => rw [bind_of_error h]; rfl

instance : LawfulMonad (Traced ω) := LawfulMonad.mk' (Traced ω)
  (by
    intro α x
    obtain ⟨trace, outcome⟩ := x
    cases outcome <;> simp [Functor.map, bind, pure])
  (by
    intro α β a f
    simp [Bind.bind, Pure.pure, bind, pure])
  (by
    intro α β γ x f g
    obtain ⟨trace, outcome⟩ := x
    cases outcome with
    | error => simp [Bind.bind, bind]
    | ok a =>
      simp only [Bind.bind, bind]
      cases (f a).outcome <;> simp)

end Traced

end Calculator
