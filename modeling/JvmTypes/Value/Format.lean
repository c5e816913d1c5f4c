import JvmTypes.Value

/-!
# Text of type values

`Value.format` writes a value as a type expression that reads back as it, with
array classes either by their internal names or in source form. `Value.shown`
writes out everything a value is made of; error messages use it.
-/

namespace JvmTypes

/-- Several texts as a tuple: a single one is followed by a comma. -/
def tupleText : List String → String
  | [] => "()"
  | [text] => "(" ++ text ++ ",)"
  | texts => "(" ++ ", ".intercalate texts ++ ")"

/-- Everything a type variable is made of. -/
def TypeVariable.shown (v : TypeVariable) : String :=
  "TypeVariable(name=" ++ Text.quoted v.name ++
    ", declaration=" ++ Text.quoted v.declaration ++ ")"

/-- Everything a class is made of. -/
def ClassType.shown (c : ClassType) : String :=
  let component :=
    match c with
    | .array component => component.shown
    | _ => Document.null.shown
  "ClassType(name=" ++ Text.quoted c.name ++
    ", type_parameters=" ++
      tupleText (c.typeVariables.map TypeVariable.shown) ++
    ", component=" ++ component ++
    ", primitive=" ++ (Document.bool c.isPrimitive).shown ++ ")"

namespace Value

mutual

/-- Everything a value is made of. -/
def shown : Value → String
  | classType c => c.shown
  | var v => v.shown
  | placeholder p => p.text
  | parameterized raw arguments =>
      "ParameterizedType(raw=" ++ shown raw ++
        ", arguments=" ++ tupleText (shownAll arguments) ++ ")"
  | array component => "GenericArrayType(component=" ++ shown component ++ ")"
  | wildcard upper lower =>
      "WildcardType(upper_bounds=" ++ tupleText (shownAll upper) ++
        ", lower_bounds=" ++ tupleText (shownAll lower) ++ ")"
  | foreign x => x.shown

/-- What `shown` tells of each of several values. -/
def shownAll : List Value → List String
  | [] => []
  | v :: vs => shown v :: shownAll vs

end

/-- The text of a class: its binary name or, in canonical form, the component of
an array class followed by `[]`. -/
def classText (canonical : Bool) (c : ClassType) : String :=
  if canonical then
    match c with
    | .array component => classText canonical component ++ "[]"
    | _ => c.name
  else c.name

/-- The name of what type arguments are applied to. -/
def rawText : Value → String
  | classType c => c.name
  | var v => v.name
  | placeholder p => p.name
  | other => other.shown

mutual

/-- A value as a type expression. -/
def format (canonical : Bool) : Value → String
  | classType c => classText canonical c
  | var v => v.name
  | placeholder p => p.text
  | parameterized raw arguments =>
      rawText raw ++ "<" ++
        ", ".intercalate (formatAll canonical arguments) ++ ">"
  | array component => format canonical component ++ "[]"
  | wildcard upper [] =>
      match formatBounds canonical upper with
      | [] => "?"
      | bounds => "? extends " ++ " & ".intercalate bounds
  | wildcard _ (bound :: bounds) =>
      "? super " ++ " & ".intercalate
        (format canonical bound :: formatAll canonical bounds)
  | foreign x => x.shown

/-- Several values as type expressions by `format`, in the same form. -/
def formatAll (canonical : Bool) : List Value → List String
  | [] => []
  | v :: vs => format canonical v :: formatAll canonical vs

/-- Upper bounds as type expressions. `Object` is left out: it bounds every
class. -/
def formatBounds (canonical : Bool) : List Value → List String
  | [] => []
  | v :: vs =>
      if v.isObject then formatBounds canonical vs
      else format canonical v :: formatBounds canonical vs

end

/-- The text of a value: a type expression, and a foreign string as it is. -/
def text : Value → String
  | foreign x => x.text
  | v => v.format false

end Value

end JvmTypes
