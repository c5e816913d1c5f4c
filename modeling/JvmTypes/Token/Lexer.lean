import JvmTypes.Text.Blank
import JvmTypes.Expression.Error

/-!
# Reading tokens

`Token.scan` cuts a text into tokens. Blanks separate and are dropped; a word
and an internal array name are read as far as they go; every other token is one
operator character. A `[` opens an internal array name exactly when another `[`
or the start of a word follows it at once.
-/

namespace JvmTypes.Token

open Text

/-- Whether a `[` followed by this text opens an internal array name. -/
def opensInternalName : List Char → Bool
  | [] => false
  | c :: _ => c = '[' || isNameStart c

/-- Whether the character can stand behind the brackets of an internal name:
`isNamePart`, a dot or a semicolon. -/
def isInternalPart (c : Char) : Bool := isNamePart c || c = '.' || c = ';'

/-- The rest of an internal array name after its first bracket. -/
def internalTail (text : List Char) : List Char :=
  text.takeWhile (· = '[') ++
    (text.dropWhile (· = '[')).takeWhile isInternalPart

/-- What follows an internal array name that started before this text. -/
def afterInternal (text : List Char) : List Char :=
  (text.dropWhile (· = '[')).dropWhile isInternalPart

/-- The token of a kind that stands at an offset, with its characters. -/
def ofChars (kind : Kind) (offset : Nat) (chars : List Char) : Token :=
  ⟨kind, String.ofList chars, offset, (offset + chars.length : Nat)⟩

private theorem length_dropWhile_le {α : Type} (p : α → Bool) (xs : List α) :
    (xs.dropWhile p).length ≤ xs.length :=
  (List.dropWhile_suffix p).length_le

private theorem length_afterInternal_le (text : List Char) :
    (afterInternal text).length ≤ text.length :=
  Nat.le_trans (length_dropWhile_le _ _) (length_dropWhile_le _ _)

/-- The tokens of a text that starts at an offset, `eof` included. -/
def scan (offset : Nat) (text : List Char) : Except GrammarError (List Token) :=
  match text with
  | [] => .ok [ofChars .eof offset []]
  | c :: cs =>
      if isBlank c then scan (offset + 1) cs
      else if isNameStart c then
        let word := c :: cs.takeWhile isNamePart
        (ofChars (.ofWord (String.ofList word)) offset word :: ·) <$>
          scan (offset + word.length) (cs.dropWhile isNamePart)
      else if c = '[' && opensInternalName cs then
        let word := c :: internalTail cs
        (ofChars .internalName offset word :: ·) <$>
          scan (offset + word.length) (afterInternal cs)
      else
        match Kind.ofOperator? c with
        | none => .error ⟨.unexpectedCharacter c, some offset⟩
        | some kind => (ofChars kind offset [c] :: ·) <$> scan (offset + 1) cs
termination_by text.length
decreasing_by
  · simp
  · have := length_dropWhile_le isNamePart cs
    simp only [List.length_cons]
    omega
  · have := length_afterInternal_le cs
    simp only [List.length_cons]
    omega
  · simp

end JvmTypes.Token

namespace JvmTypes

/-- The tokens of a text, by `Token.scan` from its start. -/
def tokenize (text : String) : Except GrammarError (List Token) :=
  Token.scan 0 text.toList

end JvmTypes
