import JvmTypes.Yaml.Scalar

/-!
# Tokens of a YAML text

The tokens make the structure of a text explicit: where block collections open
and close, as told by indentation, and where the keys of mappings are. A key is
known as one only when its `:` is met, so the scanner remembers for each level
of nesting the place where a key may have started, and puts the tokens in there
afterwards. Such a key has to end on its line and within 1024 characters.
-/

namespace JvmTypes.Yaml

/-- A token. -/
inductive Token where
  | directive (name : List Char)
  | documentStart
  | documentEnd
  | streamEnd
  | blockSequenceStart
  | blockMappingStart
  | blockEnd
  | flowSequenceStart
  | flowSequenceEnd
  | flowMappingStart
  | flowMappingEnd
  | blockEntry
  | flowEntry
  | key
  | value
  | anchor (name : List Char)
  | alias (name : List Char)
  | tag (name : List Char)
  | scalar (text : List Char) (plain : Bool)
  deriving DecidableEq, Repr

namespace Token

/-- A place where a key may have started: the number of tokens before it and
whether nothing but a key can start there. -/
structure Candidate where
  tokens : Nat
  required : Bool
  index : Nat
  line : Nat
  column : Nat

/-- The state of the scanner. `flow` holds a candidate for each flow collection
that is open, innermost first, and `block` the candidate outside of them;
`indents` holds the columns of the open block collections, innermost first. -/
structure Scanner where
  cursor : Cursor
  tokens : List Token
  indents : List Nat
  block : Option Candidate
  flow : List (Option Candidate)
  keyAllowed : Bool

namespace Scanner

/-- The scanner at the start of a text. -/
def start (text : List Char) : Scanner := ⟨.start text, [], [], none, [], true⟩

/-- Whether a flow collection is open. -/
def inFlow (s : Scanner) : Bool := !s.flow.isEmpty

/-- The column of the innermost block collection; -1 outside of all. -/
def indent (s : Scanner) : Int := s.indents.head?.elim (-1) Int.ofNat

/-- The column of the place. -/
def column (s : Scanner) : Nat := s.cursor.column

/-- The scanner with tokens added. -/
def emit (s : Scanner) (tokens : List Token) : Scanner :=
  { s with tokens := s.tokens ++ tokens }

/-- The scanner at another place. -/
def moveTo (s : Scanner) (cursor : Cursor) : Scanner := { s with cursor }

/-- The candidate of the level that is open. -/
def candidate (s : Scanner) : Option Candidate :=
  match s.flow with
  | [] => s.block
  | c :: _ => c

/-- The scanner with another candidate for the level that is open. -/
def setCandidate (s : Scanner) (c : Option Candidate) : Scanner :=
  match s.flow with
  | [] => { s with block := c }
  | _ :: outer => { s with flow := c :: outer }

/-- Whether a candidate can no longer become a key. -/
def isStale (s : Scanner) (c : Candidate) : Bool :=
  c.line ≠ s.cursor.line || s.cursor.index - c.index > 1024

/-- Gives up candidates that are stale by `isStale`; a required one must not
be. -/
def dropStale (s : Scanner) : Option Scanner :=
  let stale := fun c => isStale s c
  if (s.block :: s.flow).any fun c => c.any fun c => stale c && c.required
  then none
  else
    some { s with
      block := s.block.filter (!stale ·)
      flow := s.flow.map (·.filter (!stale ·)) }

/-- Gives up the candidate of the level that is open; a required one must not
be. -/
def dropCandidate (s : Scanner) : Option Scanner :=
  if s.candidate.any (·.required) then none else some (s.setCandidate none)

/-- Remembers the place as one where a key may start. -/
def saveCandidate (s : Scanner) : Option Scanner := do
  if s.keyAllowed then
    let dropped ← s.dropCandidate
    let required := !s.inFlow && s.indent = s.column
    some (dropped.setCandidate
      (some ⟨s.tokens.length, required, s.cursor.index,
        s.cursor.line, s.column⟩))
  else some s

/-- Closes the block collections that are indented deeper than a column. -/
def closeBlocks (column : Int) (s : Scanner) : Scanner :=
  if s.inFlow then s
  else
    let closed := s.indents.takeWhile fun (i : Nat) => column < (i : Int)
    { s with
      indents := s.indents.drop closed.length
      tokens := s.tokens ++ closed.map fun _ => .blockEnd }

/-- Opens a block collection at a column if it is deeper than the innermost
`indent`. -/
def openBlock (column : Nat) (s : Scanner) : Scanner × Bool :=
  if s.indent < column then
    ({ s with indents := column :: s.indents }, true)
  else (s, false)

/-- Passes spaces, comments and empty lines. -/
def toNext : Nat → Scanner → Scanner
  | 0, s => s
  | fuel + 1, s =>
      let c := s.cursor.skipWhile (· = ' ')
      let c :=
        if c.here = some '#' then c.skipWhile (fun x => !isBreak x) else c
      match c.lineBreak? with
      | some (_, c) =>
          toNext fuel { s with
            cursor := c
            keyAllowed := s.keyAllowed || !s.inFlow }
      | none => s.moveTo c

/-- A token that stands between documents. -/
def boundary (token : Token) (length : Nat) (s : Scanner) : Option Scanner := do
  let s ← (s.closeBlocks (-1)).dropCandidate
  some { (s.emit [token]) with
    keyAllowed := false
    cursor := s.cursor.skip length }

/-- Whether a character can stand in the name of an anchor or a directive. -/
def isNameChar (c : Char) : Bool := c.isAlphanum || c = '-' || c = '_'

/-- A directive: its name, and its line, of which only the version is
checked. -/
def directive (s : Scanner) : Option Scanner := do
  let s ← (s.closeBlocks (-1)).dropCandidate
  let (name, c) := s.cursor.next.span isNameChar
  if name = [] || !(c.here = some ' ' || endsLine c.here) then none
  else
    let (line, c) := c.span fun x => !isBreak x
    let words := (String.ofList line).splitOn " " |>.filter (· ≠ "")
    let legal := name ≠ ['Y', 'A', 'M', 'L'] ||
      (words.head?.any fun w => w.startsWith "1.")
    if legal then
      some { (s.emit [.directive name]) with
        keyAllowed := false
        cursor := c }
    else none

/-- The start of a flow collection. -/
def openFlow (token : Token) (s : Scanner) : Option Scanner := do
  let s ← s.saveCandidate
  some { (s.emit [token]) with
    flow := none :: s.flow
    keyAllowed := true
    cursor := s.cursor.next }

/-- The end of a flow collection. -/
def closeFlow (token : Token) (s : Scanner) : Option Scanner := do
  let s ← s.dropCandidate
  some { (s.emit [token]) with
    flow := s.flow.tail
    keyAllowed := false
    cursor := s.cursor.next }

/-- The comma of a flow collection. -/
def flowEntry (s : Scanner) : Option Scanner := do
  let s ← s.dropCandidate
  some { (s.emit [.flowEntry]) with
    keyAllowed := true
    cursor := s.cursor.next }

/-- The dash of a block sequence. -/
def blockEntry (s : Scanner) : Option Scanner := do
  if !s.inFlow && !s.keyAllowed then none
  else
    let (opened, isNew) := if s.inFlow then (s, false) else s.openBlock s.column
    let s := opened.emit (if isNew then [.blockSequenceStart] else [])
    let s ← s.dropCandidate
    some { (s.emit [.blockEntry]) with
      keyAllowed := true
      cursor := s.cursor.next }

/-- The question mark of a key that is marked as one. -/
def markedKey (s : Scanner) : Option Scanner := do
  if !s.inFlow && !s.keyAllowed then none
  else
    let (opened, isNew) := if s.inFlow then (s, false) else s.openBlock s.column
    let s := opened.emit (if isNew then [.blockMappingStart] else [])
    let s ← s.dropCandidate
    some { (s.emit [.key]) with
      keyAllowed := !s.inFlow
      cursor := s.cursor.next }

/-- The colon of a value. If a key may have started before it, the tokens of
that key and, where it is the first of a block, of its mapping are put in. -/
def value (s : Scanner) : Option Scanner :=
  match s.candidate with
  | some c =>
      let (opened, isNew) :=
        if s.inFlow then (s, false) else s.openBlock c.column
      let before := if isNew then [Token.blockMappingStart, .key] else [.key]
      let tokens :=
        s.tokens.take c.tokens ++ before ++ s.tokens.drop c.tokens ++ [.value]
      some { (opened.setCandidate none) with
        tokens, keyAllowed := false, cursor := s.cursor.next }
  | none => do
      if !s.inFlow && !s.keyAllowed then none
      else
        let (opened, isNew) :=
          if s.inFlow then (s, false) else s.openBlock s.column
        let s := opened.emit (if isNew then [.blockMappingStart] else [])
        let s ← s.dropCandidate
        some { (s.emit [.value]) with
          keyAllowed := !s.inFlow
          cursor := s.cursor.next }

/-- Whether an anchor or an alias can end before this character. -/
def endsAnchor (c : Option Char) : Bool :=
  endsWord c || c.any fun x => "?:,]\x7d%@`".toList.contains x

/-- The name behind the character of an anchor or an alias. -/
def named (token : List Char → Token) (s : Scanner) : Option Scanner := do
  let s ← s.saveCandidate
  let (name, c) := s.cursor.next.span isNameChar
  if name = [] || !endsAnchor c.here then none
  else some { (s.emit [token name]) with keyAllowed := false, cursor := c }

/-- A tag, which goes on to the next space or, in a flow collection, comma. -/
def tag (s : Scanner) : Option Scanner := do
  let s ← s.saveCandidate
  let (name, c) := s.cursor.next.span fun x => !endsWord (some x) &&
    !(s.inFlow && x = ',')
  some { (s.emit [.tag name]) with keyAllowed := false, cursor := c }

/-- A scalar in quotes. -/
def quoted (double : Bool) (s : Scanner) : Option Scanner := do
  let s ← s.saveCandidate
  let (text, c) ← quotedScalar double s.cursor
  some { (s.emit [.scalar text false]) with keyAllowed := false, cursor := c }

/-- A scalar that is a block of lines. -/
def blockText (folded : Bool) (s : Scanner) : Option Scanner := do
  let s ← s.dropCandidate
  let (text, c) ← blockScalar folded s.indent s.cursor
  some { (s.emit [.scalar text false]) with keyAllowed := true, cursor := c }

/-- Whether a plain scalar can start with a character, given the one after
it. -/
def startsPlain (inFlow : Bool) (x : Char) (next : Option Char) : Bool :=
  let indicators := "-?:,[]\x7b\x7d#&*!|>'\"%@`".toList
  !(endsWord (some x) || indicators.contains x) ||
    (!endsWord next && (x = '-' || (!inFlow && (x = '?' || x = ':'))))

/-- A plain scalar. -/
def plain (s : Scanner) : Option Scanner := do
  let s ← s.saveCandidate
  let fuel := s.cursor.rest.length + 1
  let (text, ended, c) := plainParts s.inFlow (s.indent + 1).toNat fuel s.cursor
  some { (s.emit [.scalar text true]) with keyAllowed := ended, cursor := c }

/-- The next token, at a place where one starts with the character `x`. -/
def token (x : Char) (s : Scanner) : Option Scanner :=
  let next := s.cursor.ahead 1
  let alone := s.inFlow || endsWord next
  if x = '%' ∧ s.column = 0 then s.directive
  else if s.column = 0 ∧ s.cursor.atDocumentMark then
    s.boundary (if x = '-' then .documentStart else .documentEnd) 3
  else if x = '[' then s.openFlow .flowSequenceStart
  else if x = '\x7b' then s.openFlow .flowMappingStart
  else if x = ']' then s.closeFlow .flowSequenceEnd
  else if x = '\x7d' then s.closeFlow .flowMappingEnd
  else if x = ',' then s.flowEntry
  else if x = '-' ∧ endsWord next then s.blockEntry
  else if x = '?' ∧ alone then s.markedKey
  else if x = ':' ∧ alone then s.value
  else if x = '*' then s.named .alias
  else if x = '&' then s.named .anchor
  else if x = '!' then s.tag
  else if x = '|' ∧ !s.inFlow then s.blockText false
  else if x = '>' ∧ !s.inFlow then s.blockText true
  else if x = '\'' then s.quoted false
  else if x = '"' then s.quoted true
  else if startsPlain s.inFlow x next then s.plain
  else none

/-- All tokens from the place on. -/
def run : Nat → Scanner → Option (List Token)
  | 0, _ => none
  | fuel + 1, s => do
      let s ← (s.toNext (s.cursor.rest.length + 1)).dropStale
      let s := s.closeBlocks s.column
      match s.cursor.here with
      | none =>
          let s ← (s.closeBlocks (-1)).dropCandidate
          some (s.tokens ++ [.streamEnd])
      | some x => run fuel (← s.token x)

end Scanner

/-- Whether a text may hold the character. -/
def isAllowed (c : Char) : Bool :=
  c = '\t' || c = '\n' || c = '\r' || (' ' ≤ c && c ≤ '~') || c = '\x85' ||
    ('\xA0' ≤ c && c ≠ '\uFFFE' && c ≠ '\uFFFF')

/-- A text in which every line ends with a line feed alone. -/
def unifyBreaks : List Char → List Char
  | [] => []
  | '\r' :: '\n' :: rest => '\n' :: unifyBreaks rest
  | '\r' :: rest => '\n' :: unifyBreaks rest
  | c :: rest => c :: unifyBreaks rest

/-- The tokens of a text, by `run` from its start; nothing if it is malformed or
holds a character that `isAllowed` refuses. -/
def scan (text : List Char) : Option (List Token) :=
  let text := unifyBreaks text
  if text.all isAllowed then
    let text := if text.head? = some '\uFEFF' then text.tail else text
    (Scanner.start text).run (text.length + 1)
  else none

end Token

end JvmTypes.Yaml
