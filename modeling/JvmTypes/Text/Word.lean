import JvmTypes.Text.WordTable
import JvmTypes.Text.IdentifierTable

/-!
# Letters, word characters and identifiers

`isLetter`, `isDecimal` and `isWord` read the word table; `isIdentifier` asks
for the shape that Unicode gives to an identifier, which differs from a run of
word characters at a few hundred code points.
-/

namespace JvmTypes.Text

/-- The kind of a word character by `wordTable`, and nothing for any other
character. -/
def wordKind? (c : Char) : Option WordKind :=
  (Range.find? wordTable c.toNat).map Range.tag

/-- Whether a character is a letter. -/
def isLetter (c : Char) : Bool := wordKind? c = some .letter

/-- Whether a character is a decimal digit of some script. -/
def isDecimal (c : Char) : Bool := wordKind? c = some .decimal

/-- Whether a character is a letter or stands for a number. -/
def isWord (c : Char) : Bool := (wordKind? c).isSome

/-- A letter is a word character: `isLetter` asks for one kind, `isWord` for
any. -/
theorem isWord_of_isLetter {c : Char} (hLetter : isLetter c = true) :
    isWord c = true := by
  simp only [isLetter, decide_eq_true_eq] at hLetter
  simp [isWord, hLetter]

/-- A letter is no decimal digit. -/
theorem isDecimal_of_isLetter {c : Char} (hLetter : isLetter c = true) :
    isDecimal c = false := by
  simp only [isLetter, decide_eq_true_eq] at hLetter
  simp [isDecimal, hLetter]

/-- Whether an identifier can start with the character: a letter that
`refusedStarts` does not hold, or one of `extraStarts`. -/
def isIdentifierStart (c : Char) : Bool :=
  (isLetter c && !Range.holds refusedStarts c.toNat) ||
    Range.holds extraStarts c.toNat

/-- Whether the character can stand inside an identifier: a word character or an
underscore that `refusedParts` does not hold, or one of `extraParts`. -/
def isIdentifierPart (c : Char) : Bool :=
  ((isWord c || c = '_') && !Range.holds refusedParts c.toNat) ||
    Range.holds extraParts c.toNat

/-- Whether a text is an identifier: a start followed by parts. -/
def isIdentifier (text : String) : Bool :=
  match text.toList with
  | [] => false
  | c :: cs => isIdentifierStart c && cs.all isIdentifierPart

end JvmTypes.Text
