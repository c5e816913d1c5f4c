import JvmTypes.Catalog.Bundled
import JvmTypes.Composition
import JvmTypes.Error
import JvmTypes.Event
import JvmTypes.Expression.Reader
import JvmTypes.Trace

/-!
# The meaning of type expressions

A scope is a catalog with a default package. A class name means the class of
that name or, if there is none and the name has no dot, the class of that name
in the default package. `Scope.evaluate` gives an expression its value, from the
left to the right: a class is looked up and its arguments are counted before the
arguments are evaluated. Each step into the default package is an event, and so
is a successful parse.
-/

namespace JvmTypes

/-- Where class names are looked up. -/
structure Scope where
  catalog : Catalog
  defaultPackage : String

namespace Scope

/-- The bundled catalog, with the package of the basic classes as default. -/
def standard : Scope := ⟨.bundled, "java.lang"⟩

/-- The class that a name means: that of the name in the catalog or, for a name
without dots, in the `defaultPackage`. The second look-up leaves a `retrying`
event behind. -/
def resolveClass (scope : Scope) (name : String) (position : Option Int) :
    Traced Event Error Declaration :=
  match scope.catalog.find? name with
  | some d => pure d
  | none =>
      if name.toList.contains '.' || scope.defaultPackage = "" then
        .fail (.classNotFound name position)
      else do
        let qualified := scope.defaultPackage ++ "." ++ name
        .emit (.retrying name qualified)
        match scope.catalog.find? qualified with
        | some d => pure d
        | none => .fail (.classNotFound name position)

/-- A composite as part of an evaluation. -/
def composed (result : Except CompositionError Value) :
    Traced Event Error Value :=
  .ofExcept (result.mapError .composition)

/-- A value under a number of array dimensions, each by
`Composition.arrayOf`. -/
def arrayTimes : Nat → Value → Except CompositionError Value
  | 0, v => .ok v
  | depth + 1, v => do arrayTimes depth (← Composition.arrayOf v)

/-- The value of an internal array name whose element is a class. -/
def evaluateClassArray (scope : Scope) (depth : Nat) (descriptor : List Char)
    (position : Option Int) : Traced Event Error Value := do
  let d ← scope.resolveClass
      (String.ofList (InternalName.body descriptor)) position
  composed (arrayTimes depth (.classType (.declared d)))

/-- The value of an internal array name. Its shape is not checked again: what is
no primitive letter is a class name between two characters. -/
def evaluateInternal (scope : Scope) (encoded : String)
    (position : Option Int) : Traced Event Error Value :=
  let descriptor := InternalName.element encoded.toList
  let depth := InternalName.depth encoded.toList
  match descriptor with
  | [c] =>
      match Primitive.ofCode? c with
      | some p => composed (arrayTimes depth (.classType (.primitive p)))
      | none => scope.evaluateClassArray depth descriptor position
  | _ => scope.evaluateClassArray depth descriptor position

mutual

/-- The value of an expression. The trees are those that the reader makes, in
which a `.primitive` has the name of a `Primitive` and a `.lower` wildcard has
one bound. A tree made by hand without that is a misuse whose failure is left
out of the model; here it fails with `classNotFound` and
`severalLowerBounds`. -/
def evaluate (scope : Scope) : Expression → Traced Event Error Value
  | .primitive name span =>
      match Primitive.ofName? name with
      | some p => pure (.classType (.primitive p))
      | none => .fail (.classNotFound name (span.map Span.start))
  | .raw name => do
      let d ← scope.resolveClass name.name (name.span.map Span.start)
      pure (.classType (.declared d))
  | .internal encoded span =>
      scope.evaluateInternal encoded (span.map Span.start)
  | .array component _ =>
      do composed (Composition.arrayOf (← evaluate scope component))
  | .parameterized raw arguments span => do
      let d ← scope.resolveClass raw.name (raw.span.map Span.start)
      if arguments.length = d.parameters.length then
        composed
          (Composition.parameterizedOf (.classType (.declared d))
            (← evaluateAll scope arguments))
      else
        .fail (.arityMismatch d.name d.parameters.length arguments.length
          (span.map Span.start))
  | .wildcard kind bounds _ => do
      let bounds ← evaluateAll scope bounds
      match kind, bounds with
      | .lower, [bound] => composed (Composition.supertypeOf bound)
      | .lower, _ => .fail (.composition .severalLowerBounds)
      | _, _ => composed (Composition.subtypeOf bounds)

/-- The values that `evaluate` yields for several expressions, from the first to
the last. -/
def evaluateAll (scope : Scope) :
    List Expression → Traced Event Error (List Value)
  | [] => pure []
  | e :: es => do
      let v ← evaluate scope e
      let vs ← evaluateAll scope es
      pure (v :: vs)

end

/-- The value that a text denotes: what `evaluate` yields for the tree that
`Expression.ofText` reads. A success leaves a `parsed` event behind. -/
def parse (scope : Scope) (text : String) : Traced Event Error Value := do
  let e ← .ofExcept ((Expression.ofText text).mapError .grammar)
  let v ← scope.evaluate e
  .emit (.parsed text v)
  pure v

end Scope

end JvmTypes
