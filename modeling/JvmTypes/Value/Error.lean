import JvmTypes.Value.Format

/-!
# Errors of composition

Why values cannot be put together to a composite value, and why a substitution
cannot be extended or applied.
-/

namespace JvmTypes

/-- The part that a value is to play in a composite. -/
inductive Role where
  | wildcardBound
  | typeArgument
  | arrayComponent
  deriving DecidableEq, Repr

/-- The wording of a role. -/
def Role.text : Role → String
  | .wildcardBound => "a wildcard bound"
  | .typeArgument => "a type argument"
  | .arrayComponent => "an array component"

/-- Why values do not compose, or a `Substitution` cannot bind or resolve. -/
inductive CompositionError where
  | noType (role : Role) (v : Value)
  | wildcardAs (role : Role) (v : Value)
  | primitiveAs (role : Role) (name : String)
  | voidComponent
  | notParameterizable (v : Value)
  | arityMismatch (raw : String) (expected actual : Nat)
  | severalLowerBounds
  | notVariable (v : Value)
  | conflict (var existing actual : Value)
  | unbound (p : Placeholder)
  | leak (v : Value)

/-- The wording of a mismatch between parameters and arguments. -/
def arityText (raw : String) (expected actual : Int) : String :=
  raw ++ " expects " ++ toString expected ++ " type argument(s), got " ++
    toString actual

/-- The wording of a `CompositionError`. -/
def CompositionError.text : CompositionError → String
  | noType role v => role.text ++ " must be a type value, got " ++ v.shown
  | wildcardAs role v =>
      "wildcard " ++ v.text ++ " cannot be used as " ++ role.text
  | primitiveAs role name =>
      "primitive type " ++ name ++ " cannot be used as " ++ role.text
  | voidComponent => "void cannot be an array component"
  | notParameterizable v => v.text ++ " cannot be parameterized"
  | arityMismatch raw expected actual => arityText raw expected actual
  | severalLowerBounds => "a lower-bounded wildcard takes a single bound"
  | notVariable v => "cannot bind non-variable " ++ v.shown
  | conflict var existing actual =>
      var.shown ++ " already bound to " ++ existing.shown ++
        ", cannot rebind to " ++ actual.shown
  | unbound p => "placeholder " ++ p.text ++ " has no binding"
  | leak v => "unbound placeholder left in " ++ v.shown

end JvmTypes
