import JvmTypes.Error
import JvmTypes.Expression.Reader

/-!
# Reading by descent

The grammar once more, with one function for each of its rules. The functions
move a cursor over a list of tokens that ends with one of kind `eof`. They
decide by the token under the cursor and never go back.

Type arguments and bounds refer back to the rule for types. That rule is bound
in a `RuleCell` after the others are written, so they have it as a parameter,
and `Descent.type` puts it in.

Two things cannot be seen from the definitions. The rules need not come to an
end: so there is a limit on how deep types may nest and on how often a loop may
be run, and a rule that would go beyond the limit gives up. And the cursor could
move past an `eof`, or past the end of the list, where the last token is taken
for the one under it: so the cursor keeps the places where it has stood.
-/

namespace JvmTypes

/-- A list of tokens that ends with one of kind `eof`. -/
structure TokenStream where
  tokens : List Token
  terminated : Token.terminated tokens = true

namespace TokenStream

theorem length_pos (s : TokenStream) : 0 < s.tokens.length := by
  obtain ⟨tokens, hTerminated⟩ := s
  cases tokens with
  | nil => cases hTerminated
  | cons => exact Nat.zero_lt_succ _

/-- The token at place `i`; behind the end it is the last one. -/
def token (s : TokenStream) (i : Nat) : Token :=
  s.tokens.get ⟨min i (s.tokens.length - 1), by have := s.length_pos; omega⟩

end TokenStream

namespace Descent

/-- The place in a list of tokens. -/
structure Cursor where
  index : Nat
  /-- The places before, the latest first. -/
  past : List Nat
  deriving DecidableEq, Repr

namespace Cursor

/-- The start of a list. -/
def start : Cursor := ⟨0, []⟩

/-- All places of the cursor, the latest first: its `index` and the `past`
ones. -/
def places (c : Cursor) : List Nat := c.index :: c.past

/-- The cursor, one place further, with its `index` added to the `past`. -/
def next (c : Cursor) : Cursor := ⟨c.index + 1, c.places⟩

@[simp] theorem index_next (c : Cursor) : c.next.index = c.index + 1 := rfl

theorem index_lt_next_next (c : Cursor) : c.index < c.next.next.index := by
  simp only [index_next]
  omega

@[simp] theorem places_next (c : Cursor) :
    c.next.places = (c.index + 1) :: c.places := rfl

end Cursor

/-- A rule of the grammar: it moves the cursor, and yields something, fails or
gives up. An error does not put the cursor back. -/
abbrev Rule (α : Type) := ExceptT Report (StateT Cursor Option) α

variable {α : Type}

/-- Gives up. -/
def giveUp : Rule α := ExceptT.mk fun _ => none

/-- Fails for `cause`, as `GrammarError.report` shows it. -/
def raise (cause : GrammarCause) (position : Option Int) : Rule α :=
  throw (GrammarError.report ⟨cause, position⟩)

/-- Yields `e` if it passes `check`. -/
def checked (check : Expression → Except GrammarError Unit) (e : Expression) :
    Rule Expression :=
  match check e with
  | .ok _ => return e
  | .error error => throw error.report

/-- Goes on from one thing to the next as long as `next?` yields one, a limited
number of times. -/
def loop (next? : α → Rule (Option α)) : Nat → α → Rule α
  | 0, _ => giveUp
  | n + 1, a => do
      match ← next? a with
      | some b => loop next? n b
      | none => return a

theorem loop_of_pos {next? : α → Rule (Option α)} {n : Nat} (hPos : 0 < n)
    (a : α) :
    loop next? n a = do
      match ← next? a with
      | some b => loop next? (n - 1) b
      | none => return a := by
  cases n with
  | zero => exact absurd hPos (Nat.lt_irrefl 0)
  | succ n => rfl

variable (s : TokenStream)

/-! ## Single tokens -/

/-- The token under the cursor. -/
def peek : Rule Token := do return s.token (← get).index

/-- Whether the token under the cursor is of a kind. -/
def check (kind : Token.Kind) : Rule Bool := do return (← peek s).kind = kind

/-- Takes the token under the cursor, unless it is of kind `eof`. -/
def advance : Rule Token := do
  let token ← peek s
  if token.kind = .eof then return token
  else
    modify Cursor.next
    return token

/-- Takes the token under the cursor with `advance` if it is of the kind
`kind`. -/
def accept (kind : Token.Kind) : Rule (Option Token) := do
  let token ← peek s
  if token.kind = kind then
    modify Cursor.next
    return some token
  else return none

/-- Takes the token under the cursor, which has to be of the kind `kind`; the
error names `wanted`. -/
def expect (kind : Token.Kind) (wanted : String) : Rule Token := do
  let token ← peek s
  if token.kind = kind then
    modify Cursor.next
    return token
  else
    throw ⟨.parse, "Unexpected " ++ token.found.text, some token.start,
      some wanted, .plain⟩

/-! ## Rules without types inside -/

/-- A class name with one part more, if a `dot` follows: its parts and where it
stops. -/
def nextPart (name : List String × Int) :
    Rule (Option (List String × Int)) := do
  if (← accept s .dot).isSome then
    let part ← expect s .ident "identifier after '.'"
    return some (name.1 ++ [part.value], part.stop)
  else return none

/-- The class name with the given parts. -/
def nameOf (parts : List String) (span : Span) : RawName :=
  ⟨".".intercalate parts, some span⟩

/-- A dotted class name. -/
def rawName (n : Nat) : Rule RawName := do
  let first ← expect s .ident "class name"
  let (parts, stop) ← loop (nextPart s) n ([first.value], first.stop)
  return nameOf parts ⟨first.start, stop⟩

/-- An internal array name. -/
def internalName : Rule Expression := do
  let token ← advance s
  if InternalName.isValid token.value.toList then
    return .internal token.value token.span
  else
    raise (.malformedInternalName (.of token.value.toList) token.value)
      token.start

/-- The array of `e`, if a pair of brackets follows. -/
def nextArray (e : Expression) : Rule (Option Expression) := do
  if ← check s .lbracket then
    let opening ← advance s
    if e.isVoid then raise .voidComponent opening.start
    else
      let closing ← expect s .rbracket "']'"
      let start := e.span.elim opening.start Span.start
      return some (.array e (some ⟨start, closing.stop⟩))
  else return none

/-! ## Rules with types inside -/

/-- A list with one `item` more, if a `mark` follows. -/
def nextItem (mark : Token.Kind) (item : Rule Expression)
    (done : List Expression) :
    Rule (Option (List Expression)) := do
  if (← accept s mark).isSome then
    let e ← item
    return some (done ++ [e])
  else return none

/-- A type argument: what `type` yields, if `checkArgument` lets it be one. -/
def argument (type : Rule Expression) : Rule Expression := do
  checked Expression.checkArgument (← type)

/-- A bound of a wildcard: what `type` yields, if `checkBound` lets it be
one. -/
def bound (type : Rule Expression) : Rule Expression := do
  checked Expression.checkBound (← type)

/-- A class name with or without type arguments, which an `lt` opens. -/
def classType (n : Nat) (type : Rule Expression) : Rule Expression := do
  let raw ← rawName s n
  match ← accept s .lt with
  | none => return .raw raw
  | some opening =>
      if ← check s .gt then raise (.emptyArguments raw.name) (← peek s).start
      else
        let first ← argument type
        let arguments ← loop (nextItem s .comma (argument type)) n [first]
        let closing ← expect s .gt "',' or '>'"
        let start := raw.span.elim opening.start Span.start
        return .parameterized raw arguments (some ⟨start, closing.stop⟩)

/-- A wildcard: a `question`, alone or with the word for upper or lower
bounds. -/
def wildcard (n : Nat) (type : Rule Expression) : Rule Expression := do
  let question ← expect s .question "'?'"
  if (← accept s .extendsWord).isSome then
    let first ← bound type
    let bounds ← loop (nextItem s .amp (bound type)) n [first]
    return Reader.wildcardOf .upper question bounds
  else if (← accept s .superWord).isSome then
    let e ← bound type
    if ← check s .amp then raise .secondLowerBound (← peek s).start
    else return Reader.wildcardOf .lower question [e]
  else return Reader.wildcardOf .unbounded question []

/-- A type other than a wildcard, without the brackets behind it. Its first
token is under the cursor. -/
def base (n : Nat) (type : Rule Expression) (token : Token) : Rule Expression :=
  match token.kind with
  | .internalName => internalName s
  | .primitive _ => do
      let _ ← advance s
      return .primitive token.value token.span
  | .ident => classType s n type
  | _ => raise (.unexpected token.found .type) token.start

/-- A type, by the rule `type` for the types inside. -/
def typeOver (n : Nat) (type : Rule Expression) : Rule Expression := do
  let token ← peek s
  if token.kind = .question then wildcard s n type
  else
    let e ← loop (nextArray s) n (← base s n type token)
    if ← check s .lt then raise e.parameterizedCause (← peek s).start
    else return e

/-- A type in which types nest less deep than a limit: `typeOver` itself as far
as the limit goes. -/
def type (n : Nat) : Nat → Rule Expression
  | 0 => giveUp
  | depth + 1 => typeOver s n (type n depth)

theorem type_of_pos {n depth : Nat} (hPos : 0 < depth) :
    type s n depth = typeOver s n (type s n (depth - 1)) := by
  cases depth with
  | zero => exact absurd hPos (Nat.lt_irrefl 0)
  | succ depth => rfl

/-- A type with nothing behind it. -/
def sentence (n : Nat) : Rule Expression := do
  let e ← type s n n
  let token ← peek s
  if token.kind = .eof then return e
  else raise (.trailing token.found) token.start

/-- What `sentence` comes to from the start of a list within a limit, and where
the cursor is then. -/
def read (n : Nat) : Option (Except Report Expression × Cursor) :=
  (sentence s n).run.run .start

end Descent

end JvmTypes
