import JvmTypes.Text.HiddenTable

/-!
# Quoted text

How a text is shown inside a message: between single quotes, or between double
quotes when it holds a single and no double quote. The backslash and the quote
in use are escaped, the three common control characters have their letters, and
any other character without a printed form is written by its code point in
hexadecimal.
-/

namespace JvmTypes.Text

/-- Whether a character has a printed form: those of `hiddenTable` have none. -/
def isPrintable (c : Char) : Bool := !Range.holds hiddenTable c.toNat

/-- The lowest `width` hexadecimal digits of a number, most significant
first. -/
def hexDigits : Nat → Nat → List Char
  | 0, _ => []
  | width + 1, n => hexDigits width (n / 16) ++ [Nat.digitChar (n % 16)]

/-- The escape of a character by its code point: two, four or eight digits,
whichever is the first to hold it. -/
def codeEscape (c : Char) : List Char :=
  if c.toNat < 0x100 then '\\' :: 'x' :: hexDigits 2 c.toNat
  else if c.toNat < 0x10000 then '\\' :: 'u' :: hexDigits 4 c.toNat
  else '\\' :: 'U' :: hexDigits 8 c.toNat

/-- One character as it stands between quotes of the given kind. -/
def escapeChar (quote c : Char) : List Char :=
  if c = quote || c = '\\' then ['\\', c]
  else if c = '\n' then ['\\', 'n']
  else if c = '\r' then ['\\', 'r']
  else if c = '\t' then ['\\', 't']
  else if isPrintable c then [c]
  else codeEscape c

/-- The quote that a text is put between. -/
def quoteFor (text : List Char) : Char :=
  if text.contains '\'' && !text.contains '"' then '"' else '\''

/-- The text between quotes, with its escapes by `escapeChar`. -/
def quoted (text : String) : String :=
  let quote := quoteFor text.toList
  String.ofList (quote :: (text.toList.flatMap (escapeChar quote) ++ [quote]))

end JvmTypes.Text
