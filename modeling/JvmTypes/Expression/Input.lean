import JvmTypes.Document

/-!
# Inputs

A type expression is read from a text. Where a document stands in for the text,
any document that is no string is refused, and a missing one in words of its
own.
-/

namespace JvmTypes

/-- Why there is no text to read. -/
inductive InputError where
  | missing
  | notText (value : Document)

/-- The wording of an error. -/
def InputError.text : InputError → String
  | missing => "type expression must not be None"
  | notText value => "type expression must be a str, got " ++ value.sortName

/-- The text of an input: a `str` is one, `null` is missing, and anything else
is refused by its `sortName`. -/
def Document.inputText : Document → Except InputError String
  | str text => .ok text
  | null => .error .missing
  | other => .error (.notText other)

end JvmTypes
