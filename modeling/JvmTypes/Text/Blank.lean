import JvmTypes.Text.Range

/-!
# Blanks

The characters that separate tokens without being part of any: the ASCII
controls from tab to carriage return and from the file to the unit separator,
the space, the next-line and no-break characters, and the wider spaces and
separators of Unicode. The zero-width space is not among them.
-/

namespace JvmTypes.Text

/-- The blank code points. -/
def blankTable : List (Range Unit) := [
  ⟨0x9, 0xD, ()⟩, ⟨0x1C, 0x20, ()⟩, ⟨0x85, 0x85, ()⟩, ⟨0xA0, 0xA0, ()⟩,
  ⟨0x1680, 0x1680, ()⟩, ⟨0x2000, 0x200A, ()⟩, ⟨0x2028, 0x2029, ()⟩,
  ⟨0x202F, 0x202F, ()⟩, ⟨0x205F, 0x205F, ()⟩, ⟨0x3000, 0x3000, ()⟩]

/-- Whether a character is blank, by `blankTable`. -/
def isBlank (c : Char) : Bool := Range.holds blankTable c.toNat

/-- Text without the blanks at its start. -/
def dropBlanks (text : List Char) : List Char := text.dropWhile isBlank

/-- Text without the characters at its end that satisfy `p`. -/
def dropEndWhile (p : Char → Bool) (text : List Char) : List Char :=
  (text.reverse.dropWhile p).reverse

/-- Text without the blanks at either end, those that `isBlank` holds of. -/
def strip (text : List Char) : List Char :=
  dropEndWhile isBlank (dropBlanks text)

end JvmTypes.Text
