import JvmTypes.Primitive

/-!
# Classes

A class is a declared class with its type parameters, a primitive type, or the
array class of another class. `ClassType.name` is its binary name, by which
classes are compared; an array class is named by its internal array name.
-/

namespace JvmTypes

/-- A type parameter together with the class that declares it. -/
structure TypeVariable where
  name : String
  declaration : String
  deriving DecidableEq, Repr

/-- A declared class: its binary name and the names of its type parameters. -/
structure Declaration where
  name : String
  parameters : List String
  deriving DecidableEq, Repr

/-- The type variables that a class declares. -/
def Declaration.typeVariables (d : Declaration) : List TypeVariable :=
  d.parameters.map fun parameter => ⟨parameter, d.name⟩

/-- A class as a type. -/
inductive ClassType where
  | declared (d : Declaration)
  | primitive (p : Primitive)
  | array (component : ClassType)
  deriving DecidableEq, Repr

namespace ClassType

/-- The class `name` without type parameters. -/
def ofName (name : String) : ClassType := declared ⟨name, []⟩

/-- The class that every other class extends, `java.lang.Object`. -/
def object : ClassType := ofName "java.lang.Object"

/-- The binary name of a class. An array class adds a bracket to the descriptor
of its component: a letter for a primitive type, the name of an array class as
it is, and any other name between `L` and `;`. -/
def name : ClassType → String
  | declared d => d.name
  | primitive p => p.name
  | array (primitive p) => "[" ++ p.code.toString
  | array (declared d) => "[L" ++ d.name ++ ";"
  | array (array component) => "[" ++ name (array component)

/-- The type variables of a class; only a `declared` class has any. -/
def typeVariables : ClassType → List TypeVariable
  | declared d => d.typeVariables
  | _ => []

/-- The number of type arguments that a class takes, one for each of its
`typeVariables`. -/
def arity (c : ClassType) : Nat := c.typeVariables.length

/-- Whether a class is a primitive type. -/
def isPrimitive : ClassType → Bool
  | primitive _ => true
  | _ => false

/-- The component of an array class. -/
def component? : ClassType → Option ClassType
  | array component => some component
  | _ => none

/-- Whether a class is an array class. -/
def isArray (c : ClassType) : Bool := c.component?.isSome

/-- The name as it is written in source text, with `[]` behind the component of
an array class and dots in place of dollar signs. -/
def canonicalName : ClassType → String
  | declared d =>
      String.ofList (d.name.toList.map fun c => if c = '$' then '.' else c)
  | primitive p => p.name
  | array component => component.canonicalName ++ "[]"

/-- The array class of a component; `void` has none. -/
def arrayClass? : ClassType → Option ClassType
  | primitive .void => none
  | c => some (array c)

end ClassType

end JvmTypes
