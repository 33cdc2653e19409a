import ClassIdiom.Event

/-! # Logged computations

A computation that may fail and reports events. A failure ends it and keeps the events reported so
far. The result never depends on the events: `result_bind` says that taking the result turns a
logged computation into one without a log. -/

namespace ClassIdiom

/-- The events reported and the result. -/
structure Logged (ε α : Type) where
  events : List Event
  result : Except ε α

namespace Logged

variable {ε ε' α β : Type}

instance : Monad (Logged ε) where
  pure a := ⟨[], .ok a⟩
  bind x f :=
    match x.result with
    | .ok a => ⟨x.events ++ (f a).events, (f a).result⟩
    | .error e => ⟨x.events, .error e⟩

/-- Reports an event. -/
def log (e : Event) : Logged ε Unit := ⟨[e], .ok ()⟩

/-- A computation that reports nothing. -/
def ofExcept (r : Except ε α) : Logged ε α := ⟨[], r⟩

/-- Fails. -/
def fail (e : ε) : Logged ε α := ⟨[], .error e⟩

/-- Fails unless a condition holds. -/
def require (condition : Bool) (e : ε) : Logged ε Unit :=
  if condition then pure () else fail e

/-- Changes the error. -/
def mapError (f : ε → ε') (x : Logged ε α) : Logged ε' α := ⟨x.events, x.result.mapError f⟩

/-! ### Results -/

@[simp]
theorem result_pure (a : α) : (pure a : Logged ε α).result = .ok a := rfl

@[simp]
theorem result_bind (x : Logged ε α) (f : α → Logged ε β) :
    (x >>= f).result = x.result >>= fun a => (f a).result := by
  simp only [bind, Except.bind]
  cases x.result <;> rfl

@[simp]
theorem result_log (e : Event) : (log e : Logged ε Unit).result = .ok () := rfl

@[simp]
theorem result_ofExcept (r : Except ε α) : (ofExcept r).result = r := rfl

@[simp]
theorem result_fail (e : ε) : (fail e : Logged ε α).result = .error e := rfl

@[simp]
theorem result_mapError (f : ε → ε') (x : Logged ε α) :
    (x.mapError f).result = x.result.mapError f := rfl

theorem result_require (condition : Bool) (e : ε) :
    (require condition e).result = if condition then .ok () else .error e := by
  cases condition <;> rfl

instance : LawfulMonad (Logged ε) :=
  LawfulMonad.mk' _
    (fun x => by
      obtain ⟨events, result⟩ := x
      cases result <;> simp [Functor.map])
    (fun a f => by simp [bind, pure])
    (fun x f g => by
      obtain ⟨events, result⟩ := x
      cases result with
      | error e => rfl
      | ok a =>
        simp only [bind]
        cases (f a).result <;> simp)

end Logged

end ClassIdiom
