import JvmTypes.Substitution

/-!
# Composition

The composite values over given parts. Each is described by a template whose
slots are placeholders, one for each part, and the parts are then substituted
for the slots. The placeholders are numbered from above all that occur in the
parts, so a slot is never mistaken for something a part contains; a part that
contains placeholders of its own is refused, for the result would not be free
of them.
-/

namespace JvmTypes

/-- Refuses a value that cannot play `role` in a composite: what is no type, a
primitive type and, except as a `typeArgument`, a wildcard. -/
def Role.check (role : Role) (v : Value) : Except CompositionError Unit :=
  match v with
  | .foreign _ => .error (.noType role v)
  | .wildcard .. =>
      if role = .typeArgument then .ok () else .error (.wildcardAs role v)
  | .classType (.primitive p) => .error (.primitiveAs role p.name)
  | _ => .ok ()

namespace Composition

/-- The slots that a template is filled with, as placeholders, and the bindings
of these slots to the parts. -/
structure Slots where
  slots : List Value
  bindings : Substitution

/-- Adds a slot for one more part, once `Role.check` has let it play its
role. -/
def Slots.add (role : Role) (name : String) (serial : Nat) (filled : Slots)
    (part : Value) :
    Except CompositionError Slots := do
  role.check part
  let slot := Value.placeholder ⟨name, serial⟩
  let bindings ← filled.bindings.bind slot part
  .ok ⟨filled.slots ++ [slot], bindings⟩

/-- Adds a slot for each of several parts, numbered from `serial` on. -/
def Slots.addAll (role : Role) (name : String) (serial : Nat) (filled : Slots) :
    List Value → Except CompositionError Slots
  | [] => .ok filled
  | part :: parts => do
      let filled ← filled.add role name serial part
      addAll role name (serial + 1) filled parts

/-- The composite that `template` makes of parts that play `role`: a slot is
made for each part, the template is applied to the slots, and
`Substitution.resolve` puts the parts in their place. -/
def compose (role : Role) (name : String) (parts : List Value)
    (template : List Value → Value) :
    Except CompositionError Value := do
  let filled ← Slots.addAll role name (Value.serialBoundAll parts)
      ⟨[], .empty⟩ parts
  filled.bindings.resolve (template filled.slots)

/-- The upper bounds that count: `Object` only if there is no other. -/
def effectiveBounds (bounds : List Value) : List Value :=
  match bounds.filter (fun b => !b.isObject) with
  | [] => [.object]
  | others => others

/-- The wildcard with the upper bounds `bounds`; without any it is unbounded. -/
def subtypeOf (bounds : List Value) : Except CompositionError Value :=
  compose .wildcardBound "B" (effectiveBounds bounds) fun slots =>
    .wildcard slots []

/-- The wildcard with the lower bound `bound`. -/
def supertypeOf (bound : Value) : Except CompositionError Value :=
  compose .wildcardBound "SUB" [bound] fun slots => .wildcard [.object] slots

/-- The class `raw` applied to type arguments, as many as its `arity`. The
bounds of its parameters are not checked. -/
def parameterizedOf (raw : Value) (arguments : List Value) :
    Except CompositionError Value :=
  match raw with
  | .classType (.declared d) =>
      if arguments.length = d.parameters.length then
        compose .typeArgument "T" arguments fun slots =>
          .parameterized raw slots
      else .error (.arityMismatch d.name d.parameters.length arguments.length)
  | _ => .error (.notParameterizable raw)

/-- The array with the component `component`: an array class if that is a
class. -/
def arrayOf (component : Value) : Except CompositionError Value :=
  match component with
  | .classType _ => Substitution.arrayOver component
  | _ =>
      compose .arrayComponent "E" [component] fun slots =>
        .array (slots.headD component)

end Composition

end JvmTypes
