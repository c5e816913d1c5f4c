/-!
# Traced computations

A traced computation yields a result or an error together with the events that
happened on the way. An error ends the computation and keeps the events so far.
-/

namespace JvmTypes

/-- A result with the events before it. -/
structure Traced (event error α : Type) where
  events : List event
  result : Except error α

namespace Traced

variable {event error α β : Type}

/-- A result without events. -/
def ofExcept (result : Except error α) : Traced event error α := ⟨[], result⟩

/-- One event. -/
def emit (e : event) : Traced event error Unit := ⟨[e], .ok ()⟩

/-- An error without events. -/
def fail (e : error) : Traced event error α := ⟨[], .error e⟩

/-- A computation and then another that depends on its result. An error ends it;
the events of `x` come first. -/
def andThen (x : Traced event error α) (f : α → Traced event error β) :
    Traced event error β :=
  match x.result with
  | .ok a => ⟨x.events ++ (f a).events, (f a).result⟩
  | .error e => ⟨x.events, .error e⟩

instance : Monad (Traced event error) where
  pure a := ⟨[], .ok a⟩
  bind := andThen

@[simp] theorem pure_eq (a : α) :
    (pure a : Traced event error α) = ⟨[], .ok a⟩ := rfl

@[simp] theorem ok_bind (events : List event) (a : α)
    (f : α → Traced event error β) :
    (⟨events, .ok a⟩ : Traced event error α) >>=
      f = ⟨events ++ (f a).events, (f a).result⟩ :=
  rfl

@[simp] theorem error_bind (events : List event) (e : error)
    (f : α → Traced event error β) :
    (⟨events, .error e⟩ : Traced event error α) >>= f = ⟨events, .error e⟩ :=
  rfl

instance : LawfulMonad (Traced event error) :=
  LawfulMonad.mk' _
    (by rintro _ ⟨events, a | e⟩ <;> simp [Functor.map, andThen])
    (by simp [Bind.bind, andThen])
    (by
      rintro _ _ _ ⟨events, a | e⟩ f g
      · simp [Bind.bind, andThen]
      · cases h : (f e).result <;> simp [Bind.bind, andThen, h])

end Traced

end JvmTypes
