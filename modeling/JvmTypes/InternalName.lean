import JvmTypes.Name
import JvmTypes.Primitive
import JvmTypes.Text.Quoted

/-!
# Internal array names

An array class is named by one `[` for each dimension, followed by the
descriptor of its element: the letter of a primitive type, or `L`, a class name
and `;`. `isValid` decides the shape; `Fault.of` says what is wrong with a text
that does not have it.
-/

namespace JvmTypes.InternalName

/-- The number of dimensions: how many `[` the text starts with. -/
def depth (text : List Char) : Nat := (text.takeWhile (· = '[')).length

/-- The descriptor of the element: the text after its dimensions. -/
def element (text : List Char) : List Char := text.dropWhile (· = '[')

/-- The class name inside a descriptor: all but its `L` and its `;`, whatever
its first and last characters are. -/
def body (descriptor : List Char) : List Char := (descriptor.drop 1).dropLast

/-- Whether a text is the letter of a primitive type other than `void`. -/
def isPrimitiveCode : List Char → Bool
  | [c] => (Primitive.ofCode? c).isSome
  | _ => false

/-- Whether a text is `L`, a class name and `;`. -/
def isClassDescriptor : List Char → Bool
  | 'L' :: rest => rest.getLast? = some ';' && isClassName rest.dropLast
  | _ => false

/-- Whether a text is a complete internal array name: at least one dimension by
`depth` and then the descriptor of an element. -/
def isValid (text : List Char) : Bool :=
  0 < depth text && (isPrimitiveCode (element text) ||
    isClassDescriptor (element text))

/-- What is wrong with a text that `isValid` refuses. -/
inductive Fault where
  | missingElement
  | voidElement
  | missingSemicolon
  | superfluousSemicolon
  | invalidClassName
  | missingMarker
  | unknownCode (element : String)
  | malformedElement
  deriving DecidableEq, Repr

/-- The fault of a text that `isValid` refuses, from the first of these
questions that applies. -/
def Fault.of (text : List Char) : Fault :=
  let descriptor := element text
  if descriptor = [] then .missingElement
  else if descriptor = ['V'] then .voidElement
  else if descriptor.head? = some 'L' then
    if descriptor.getLast? ≠ some ';' then .missingSemicolon
    else if descriptor.count ';' > 1 then .superfluousSemicolon
    else .invalidClassName
  else if descriptor.getLast? = some ';' then .missingMarker
  else if descriptor.length = 1 then .unknownCode (String.ofList descriptor)
  else .malformedElement

/-- The wording of a `Fault`. -/
def Fault.text : Fault → String
  | .missingElement => "missing array element type"
  | .voidElement => "void cannot be an array component"
  | .missingSemicolon => "missing trailing ';'"
  | .superfluousSemicolon => "superfluous ';'"
  | .invalidClassName => "invalid class name"
  | .missingMarker => "class descriptor must start with 'L'"
  | .unknownCode element => "unknown primitive code " ++ Text.quoted element
  | .malformedElement => "malformed element type"

end JvmTypes.InternalName
