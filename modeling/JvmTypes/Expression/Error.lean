import JvmTypes.Token
import JvmTypes.InternalName

/-!
# Errors of the grammar

What a text can do wrong before any name in it is looked up.
-/

namespace JvmTypes

/-- What stands where something else was wanted. -/
inductive Found where
  | endOfInput
  | lexeme (text : String)
  deriving DecidableEq, Repr

/-- What the grammar wanted to read. -/
inductive Wanted where
  | type
  | typeArgument
  | argumentSeparator
  | closingBracket
  | identifierAfterDot
  | internalName
  | endOfInput
  deriving DecidableEq, Repr

/-- Why a text is no type expression. -/
inductive GrammarCause where
  | unexpectedCharacter (c : Char)
  | emptyText
  | unexpected (found : Found) (wanted : Wanted)
  | trailing (found : Found)
  | emptyArguments (raw : String)
  | voidComponent
  | alreadyParameterized (raw : String)
  | parameterizedArray
  | parameterizedPrimitive (name : String)
  | notParameterizable
  | primitiveArgument (name : String)
  | primitiveBound (name : String)
  | wildcardBound
  | secondLowerBound
  | malformedInternalName (fault : InternalName.Fault) (text : String)
  deriving DecidableEq, Repr

/-- A `GrammarCause` and the offset it is reported at. -/
structure GrammarError where
  cause : GrammarCause
  position : Option Int
  deriving DecidableEq, Repr

/-- What a token looks like in a message. -/
def Token.found (token : Token) : Found :=
  if token.kind = .eof then .endOfInput else .lexeme token.value

/-- The error of meeting `token` where something else was `wanted`, at its
start. -/
def Token.unexpected (token : Token) (wanted : Wanted) : GrammarError :=
  ⟨.unexpected token.found wanted, some token.start⟩

/-- The wording of what was found. -/
def Found.text : Found → String
  | .endOfInput => "end of input"
  | .lexeme text => Text.quoted text

/-- The wording of what was wanted. -/
def Wanted.text : Wanted → String
  | .type => "type"
  | .typeArgument => "type argument"
  | .argumentSeparator => "',' or '>'"
  | .closingBracket => "']'"
  | .identifierAfterDot => "identifier after '.'"
  | .internalName => "'[' followed by a primitive code or 'L<class name>;'"
  | .endOfInput => "end of input"

namespace GrammarCause

/-- The wording of a `GrammarCause`. -/
def text : GrammarCause → String
  | unexpectedCharacter c => "Unexpected character " ++ Text.quoted c.toString
  | emptyText => "empty type expression"
  | unexpected found _ => "Unexpected " ++ found.text
  | trailing found => "Unexpected " ++ found.text ++ " after complete type"
  | emptyArguments raw => "Empty type argument list for " ++ raw
  | voidComponent => "void cannot be an array component"
  | alreadyParameterized raw => raw ++ " is already parameterized"
  | parameterizedArray => "array types cannot be parameterized"
  | parameterizedPrimitive name =>
      "primitive type " ++ name ++ " cannot be parameterized"
  | notParameterizable => "type cannot be parameterized"
  | primitiveArgument name =>
      "primitive type " ++ name ++ " cannot be a type argument"
  | primitiveBound name =>
      "primitive type " ++ name ++ " cannot be a wildcard bound"
  | wildcardBound => "wildcard bound cannot be a wildcard"
  | secondLowerBound => "a lower-bounded wildcard takes a single bound"
  | malformedInternalName fault text => fault.text ++ " in " ++ Text.quoted text

/-- What was wanted instead, where the cause tells. -/
def wanted? : GrammarCause → Option Wanted
  | emptyText => some .type
  | unexpected _ wanted => some wanted
  | trailing _ => some .endOfInput
  | emptyArguments _ => some .typeArgument
  | malformedInternalName .. => some .internalName
  | _ => none

end GrammarCause

end JvmTypes
