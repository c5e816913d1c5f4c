/-!
# Places in a text

A cursor is the text that is left together with how many characters, lines and
columns lie before it. Indentation is counted in columns.
-/

namespace JvmTypes.Yaml

/-- Whether a character ends a line. -/
def isBreak (c : Char) : Bool :=
  c = '\n' || c = '\r' || c = '\x85' || c = '\u2028' || c = '\u2029'

/-- Whether a line or the text ends here. -/
def endsLine : Option Char → Bool
  | none => true
  | some c => isBreak c

/-- Whether a space, a tab, or the end of a line or of the text is here. -/
def endsWord : Option Char → Bool
  | none => true
  | some c => c = ' ' || c = '\t' || isBreak c

/-- A place in a text. -/
structure Cursor where
  rest : List Char
  index : Nat
  line : Nat
  column : Nat

namespace Cursor

/-- The start of a text. -/
def start (text : List Char) : Cursor := ⟨text, 0, 0, 0⟩

/-- The character at the place. -/
def here (c : Cursor) : Option Char := c.rest.head?

/-- The character `n` places further. -/
def ahead (c : Cursor) (n : Nat) : Option Char := c.rest[n]?

/-- The next place. A byte order mark takes no column. -/
def next (c : Cursor) : Cursor :=
  match c.rest with
  | [] => c
  | x :: rest =>
      if isBreak x then ⟨rest, c.index + 1, c.line + 1, 0⟩
      else
        ⟨rest, c.index + 1, c.line, if x = '\uFEFF' then c.column
          else c.column + 1⟩

/-- The place `n` characters further. -/
def skip : Nat → Cursor → Cursor
  | 0, c => c
  | n + 1, c => skip n c.next

/-- The characters up to the first that does not satisfy `p`, and the place of
that one. -/
def span (p : Char → Bool) (c : Cursor) : List Char × Cursor :=
  let taken := c.rest.takeWhile p
  (taken, skip taken.length c)

/-- The place of the first character that does not satisfy `p`. -/
def skipWhile (p : Char → Bool) (c : Cursor) : Cursor := (c.span p).2

/-- Spaces passed as long as the column is below a limit. -/
def skipIndent (limit : Nat) (c : Cursor) : Cursor :=
  skip (min (limit - c.column) (c.rest.takeWhile (· = ' ')).length) c

/-- The end of a line, as it is kept in a scalar, and the place behind it. -/
def lineBreak? (c : Cursor) : Option (Char × Cursor) :=
  match c.here with
  | some x =>
      if isBreak x then
        some (if x = '\u2028' || x = '\u2029' then x else '\n', c.next)
      else none
  | none => none

/-- Whether a line that starts here is one of the marks between documents. -/
def atDocumentMark (c : Cursor) : Bool :=
  (c.rest.take 3 = ['-', '-', '-'] || c.rest.take 3 = ['.', '.', '.']) &&
    endsWord (c.ahead 3)

end Cursor

end JvmTypes.Yaml
