import JvmTypes.ClassType
import JvmTypes.Document

/-!
# Type values

A type value is a class, a type variable, or a composite of other values:
a class with type arguments, an array of a component that is no class, or a
wildcard with its bounds. A placeholder is a variable that is equal to itself
alone; templates of composites are written with placeholders.
-/

namespace JvmTypes

/-- A placeholder, told apart from every other by its serial number. -/
structure Placeholder where
  name : String
  serial : Nat
  deriving DecidableEq, Repr

/-- The text of a placeholder. -/
def Placeholder.text (p : Placeholder) : String :=
  p.name ++ "#" ++ toString p.serial

/-- A type value. `foreign` is a value that is no type and stands where one is
expected. -/
inductive Value where
  | classType (c : ClassType)
  | var (v : TypeVariable)
  | placeholder (p : Placeholder)
  | parameterized (raw : Value) (arguments : List Value)
  | array (component : Value)
  | wildcard (upper lower : List Value)
  | foreign (x : Document)

namespace Value

instance : Inhabited Value := ⟨foreign .null⟩

/-- The class `Object` as a value. -/
def object : Value := classType .object

/-- Whether a value is a class with the name of `Object`. -/
def isObject : Value → Bool
  | classType c => c.name = ClassType.object.name
  | _ => false

mutual

/-- Whether a placeholder stands in a value: in its arguments, its bounds or its
component. -/
def hasPlaceholder : Value → Bool
  | placeholder _ => true
  | parameterized _ arguments => anyPlaceholder arguments
  | array component => hasPlaceholder component
  | wildcard upper lower => anyPlaceholder upper || anyPlaceholder lower
  | _ => false

/-- Whether a placeholder stands in one of several values. -/
def anyPlaceholder : List Value → Bool
  | [] => false
  | v :: vs => hasPlaceholder v || anyPlaceholder vs

end

mutual

/-- A serial number above those of all placeholders in a value, so that a
`Placeholder` with it is new. -/
def serialBound : Value → Nat
  | placeholder p => p.serial + 1
  | parameterized raw arguments =>
      max (serialBound raw) (serialBoundAll arguments)
  | array component => serialBound component
  | wildcard upper lower => max (serialBoundAll upper) (serialBoundAll lower)
  | _ => 0

/-- A serial number above those of all placeholders in several values. -/
def serialBoundAll : List Value → Nat
  | [] => 0
  | v :: vs => max (serialBound v) (serialBoundAll vs)

end

end Value

end JvmTypes
