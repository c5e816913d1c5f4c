import JvmTypes.Value.Error
import JvmTypes.Value.Same

/-!
# Substitution

A substitution binds placeholders and type variables to values. It replaces all
bound variables of a value at once: what is inserted is not substituted again.
A placeholder without a binding is an error, a type variable without one stays.
An array whose component becomes a class turns into the array class.
-/

namespace JvmTypes

/-- Bindings in the order in which their variables were first bound; `insert`
keeps one for each variable. -/
structure Substitution where
  bindings : List (Value × Value)

namespace Substitution

/-- The substitution without bindings. -/
def empty : Substitution := ⟨[]⟩

/-- What a variable is bound to. A binding to a missing value, `null` as a
`foreign` one, counts as none. -/
def find? (s : Substitution) (key : Value) : Option Value :=
  match s.bindings.find? fun binding => binding.1.same key with
  | some (_, .foreign .null) => none
  | some (_, actual) => some actual
  | none => none

/-- Bindings with one more: it replaces that of the same key by `Value.same`, or
comes last. -/
def insertBinding (key actual : Value) :
    List (Value × Value) → List (Value × Value)
  | [] => [(key, actual)]
  | binding :: rest =>
      if binding.1.same key then (binding.1, actual) :: rest
      else binding :: insertBinding key actual rest

/-- The substitution with one more binding, unchecked. -/
def insert (s : Substitution) (key actual : Value) : Substitution :=
  ⟨insertBinding key actual s.bindings⟩

/-- The substitution of a list of bindings, each put in by `insert`
unchecked. -/
def ofList (bindings : List (Value × Value)) : Substitution :=
  bindings.foldl (fun s binding => s.insert binding.1 binding.2) empty

/-- The substitution with one more variable bound. A variable can be bound again
only to a value that is the same by `Value.same`; anything else is a
`conflict`. -/
def bind (s : Substitution) (key actual : Value) :
    Except CompositionError Substitution :=
  match key with
  | .var _ | .placeholder _ =>
      match s.find? key with
      | some existing =>
          if existing.same actual then .ok (s.insert key actual)
          else .error (.conflict key existing actual)
      | none => .ok (s.insert key actual)
  | _ => .error (.notVariable key)

/-- The array of a value: the array class of a class by `arrayClass?`, and a
composite otherwise. -/
def arrayOver : Value → Except CompositionError Value
  | .classType c =>
      match c.arrayClass? with
      | some array => .ok (.classType array)
      | none => .error .voidComponent
  | v => .ok (.array v)

mutual

/-- A value with its variables replaced. -/
def apply (s : Substitution) : Value → Except CompositionError Value
  | .var v => .ok ((s.find? (.var v)).getD (.var v))
  | .placeholder p =>
      match s.find? (.placeholder p) with
      | some actual => .ok actual
      | none => .error (.unbound p)
  | .parameterized raw arguments => do
      let arguments ← applyAll s arguments
      .ok (.parameterized raw arguments)
  | .wildcard upper lower => do
      let upper ← applyAll s upper
      let lower ← applyAll s lower
      .ok (.wildcard upper lower)
  | .array component => do arrayOver (← apply s component)
  | .classType c => .ok (.classType c)
  | .foreign x => .ok (.foreign x)

/-- Several values with their variables replaced by `apply`, from the first to
the last. -/
def applyAll (s : Substitution) :
    List Value → Except CompositionError (List Value)
  | [] => .ok []
  | v :: vs => do
      let v ← apply s v
      let vs ← applyAll s vs
      .ok (v :: vs)

end

/-- A value with its variables replaced by `apply` and no placeholder left in
it. -/
def resolve (s : Substitution) (v : Value) : Except CompositionError Value := do
  let resolved ← s.apply v
  if resolved.hasPlaceholder then .error (.leak resolved) else .ok resolved

end Substitution

end JvmTypes
