import JvmTypes.Text.Word

/-!
# Names

Two notions of a name meet here. The lexer reads a *word*: a letter, underscore
or dollar sign, and then word characters, underscores and dollar signs. A *class
name* is a dotted sequence of segments, each of which may also start with a
numeral that is no decimal digit. So every dotted sequence of words is a class
name, and not the other way round.
-/

namespace JvmTypes

open Text

/-- Whether a word of the source text can start with the character.
`isSegmentStart` allows more. -/
def isNameStart (c : Char) : Bool := isLetter c || c = '_' || c = '$'

/-- Whether the character can stand inside a word or a segment. -/
def isNamePart (c : Char) : Bool := isWord c || c = '_' || c = '$'

/-- Whether a segment of a class name can start with the character. -/
def isSegmentStart (c : Char) : Bool :=
  ((isWord c || c = '_') && !isDecimal c) || c = '$'

/-- Whether a text completes a class name; `fresh` says that a segment has to
start here. -/
def completesClassName : (fresh : Bool) → List Char → Bool
  | fresh, [] => !fresh
  | true, c :: cs => isSegmentStart c && completesClassName false cs
  | false, c :: cs =>
      if c = '.' then completesClassName true cs
      else isNamePart c && completesClassName false cs

/-- Whether a text is a class name: one or more segments with dots between. -/
def isClassName (text : List Char) : Bool := completesClassName true text

/-- A word can go on with any character that `isNameStart` lets it start
with. -/
theorem isNamePart_of_isNameStart {c : Char} (hStart : isNameStart c = true) :
    isNamePart c = true := by
  simp only [isNameStart, Bool.or_eq_true, decide_eq_true_eq] at hStart
  simp only [isNamePart, Bool.or_eq_true, decide_eq_true_eq]
  rcases hStart with (hLetter | hScore) | hDollar
  · exact .inl (.inl (isWord_of_isLetter hLetter))
  · exact .inl (.inr hScore)
  · exact .inr hDollar

/-- A segment can start with any character that `isNameStart` lets a word start
with. -/
theorem isSegmentStart_of_isNameStart {c : Char}
    (hStart : isNameStart c = true) : isSegmentStart c = true := by
  simp only [isNameStart, Bool.or_eq_true, decide_eq_true_eq] at hStart
  rcases hStart with (hLetter | rfl) | rfl
  · simp [isSegmentStart, isWord_of_isLetter hLetter,
      isDecimal_of_isLetter hLetter]
  · decide
  · decide

end JvmTypes
