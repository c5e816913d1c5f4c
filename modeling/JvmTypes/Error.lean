import JvmTypes.Expression.Error
import JvmTypes.Value.Error

/-!
# Errors about type expressions

`Error` collects the ways in which a type expression can fail to denote a value;
`Report` is the form in which such an error is shown, with its kind, wording,
offset and what was wanted instead.
-/

namespace JvmTypes

/-- Why a type expression does not denote a value: its text is refused with a
`GrammarError`, or `Scope.evaluate` refuses its tree. -/
inductive Error where
  | grammar (error : GrammarError)
  | composition (error : CompositionError)
  | arityMismatch (raw : String) (expected actual : Nat) (position : Option Int)
  | classNotFound (name : String) (position : Option Int)

/-- The kinds of errors. -/
inductive Report.Kind where
  | expression
  | parse
  | lex
  | trailingInput
  | malformedInternalName
  | invalidTypeArgument
  | arityMismatch
  | classNotFound
  | canonicalization
  deriving DecidableEq, Repr

/-- Whether an error of the kind is one of `parse`: the text is no well-formed
type expression. -/
def Report.Kind.isParse : Report.Kind → Bool
  | parse | lex | trailingInput | malformedInternalName
  | invalidTypeArgument | arityMismatch => true
  | expression | classNotFound | canonicalization => false

/-- What an error of some kinds tells besides its text. -/
inductive Report.Detail where
  | plain
  | arity (raw : String) (expected actual : Int)
  | missing (name : String)
  deriving DecidableEq, Repr

/-- An error as it is shown. -/
structure Report where
  kind : Report.Kind
  text : String
  position : Option Int
  expected : Option String
  detail : Report.Detail
  deriving DecidableEq, Repr

namespace Report

/-- The whole message: the `position`, the `text` and what was `expected`, so
far as they are known. -/
def message (r : Report) : String :=
  let located :=
    match r.position with
    | some position => toString position ++ ": " ++ r.text
    | none => r.text
  match r.expected with
  | some expected =>
      if expected = "" then located
      else located ++ " (expected " ++ expected ++ ")"
  | none => located

/-- A mismatch between the parameters of a class and type arguments. -/
def arityMismatch (raw : String) (expected actual : Int)
    (position : Option Int) : Report :=
  ⟨.arityMismatch, arityText raw expected actual, position, none,
    .arity raw expected actual⟩

/-- A class that is not known. -/
def classNotFound (name : String) (position : Option Int) : Report :=
  ⟨.classNotFound, "class not found: " ++ name, position, none, .missing name⟩

end Report

/-- The kind of an error of the grammar, by its `GrammarCause`. -/
def GrammarCause.kind : GrammarCause → Report.Kind
  | unexpectedCharacter _ => .lex
  | trailing _ => .trailingInput
  | malformedInternalName .. => .malformedInternalName
  | primitiveArgument _ | primitiveBound _ => .invalidTypeArgument
  | _ => .parse

/-- A `GrammarError` as it is shown. -/
def GrammarError.report (e : GrammarError) : Report :=
  ⟨e.cause.kind, e.cause.text, e.position,
    e.cause.wanted?.map Wanted.text, .plain⟩

/-- A `CompositionError` as it is shown. -/
def CompositionError.report (e : CompositionError) : Report :=
  match e with
  | arityMismatch raw expected actual => .arityMismatch raw expected actual none
  | noType .. | wildcardAs .. | primitiveAs
      .. | voidComponent | notParameterizable _
  | severalLowerBounds => ⟨.invalidTypeArgument, e.text, none, none, .plain⟩
  | notVariable _ | conflict .. | unbound _ | leak _ =>
      ⟨.canonicalization, e.text, none, none, .plain⟩

/-- An `Error` as it is shown. -/
def Error.report : Error → Report
  | grammar error => error.report
  | composition error => error.report
  | arityMismatch raw expected actual position =>
      .arityMismatch raw expected actual position
  | classNotFound name position => .classNotFound name position

end JvmTypes
