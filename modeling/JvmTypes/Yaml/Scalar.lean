import JvmTypes.Yaml.Cursor

/-!
# The text of scalars

How each of the styles of a scalar is read: plain, in single or in double
quotes, and as an indented block whose line breaks are kept or folded. Each
reader starts at a place and yields the text with the place behind it, or
nothing if the scalar is malformed. Breaks inside plain and quoted scalars fold:
a single one becomes a space, and of several the first is dropped.
-/

namespace JvmTypes.Yaml

/-- What a folded line break and the empty lines after it become. -/
def foldBreak (first : Char) (more : List Char) : List Char :=
  if first ≠ '\n' then first :: more
  else if more = [] then [' ']
  else more

/-! ## Quoted scalars -/

/-- The line breaks of empty lines inside quotes. A mark between documents must
not stand at the start of a line. -/
def quotedBreaks : Nat → Cursor → Option (List Char × Cursor)
  | 0, _ => none
  | fuel + 1, c =>
      if c.atDocumentMark then none
      else
        let c := c.skipWhile fun x => x = ' ' || x = '\t'
        match c.lineBreak? with
        | none => some ([], c)
        | some (b, c) => do
            let (more, c) ← quotedBreaks fuel c
            some (b :: more, c)

/-- A run of spaces and breaks inside quotes. -/
def quotedSpaces (fuel : Nat) (c : Cursor) : Option (List Char × Cursor) :=
  let (spaces, c) := c.span fun x => x = ' ' || x = '\t'
  match c.here with
  | none => none
  | some _ =>
      match c.lineBreak? with
      | none => some (spaces, c)
      | some (b, c) => do
          let (more, c) ← quotedBreaks fuel c
          some (foldBreak b more, c)

/-- The character that an escape letter stands for. -/
def escapeLetter : Char → Option Char
  | '0' => some (Char.ofNat 0)
  | 'a' => some '\x07'
  | 'b' => some '\x08'
  | 't' => some '\t'
  | '\t' => some '\t'
  | 'n' => some '\n'
  | 'v' => some '\x0B'
  | 'f' => some '\x0C'
  | 'r' => some '\r'
  | 'e' => some '\x1B'
  | ' ' => some ' '
  | '"' => some '"'
  | '\\' => some '\\'
  | '/' => some '/'
  | 'N' => some '\x85'
  | '_' => some '\xA0'
  | 'L' => some '\u2028'
  | 'P' => some '\u2029'
  | _ => none

/-- The number of digits of an escape by code point. -/
def escapeDigits : Char → Option Nat
  | 'x' => some 2
  | 'u' => some 4
  | 'U' => some 8
  | _ => none

/-- The value of a hexadecimal digit. -/
def hexValue? (c : Char) : Option Nat :=
  if '0' ≤ c ∧ c ≤ '9' then some (c.toNat - '0'.toNat)
  else if 'a' ≤ c ∧ c ≤ 'f' then some (c.toNat - 'a'.toNat + 10)
  else if 'A' ≤ c ∧ c ≤ 'F' then some (c.toNat - 'A'.toNat + 10)
  else none

/-- The value of some hexadecimal digits. -/
def hexNumber? (cs : List Char) : Option Nat :=
  cs.foldlM (fun n c => (hexValue? c).map (16 * n + ·)) 0

/-- Whether a character inside quotes has to be looked at. -/
def isQuotedSpecial (x : Char) : Bool :=
  x = '\'' || x = '"' || x = '\\' || x = ' ' || x = '\t' || isBreak x

/-- A run of characters inside quotes up to a space, a break or the quote. -/
def quotedRun (double : Bool) : Nat → Cursor → Option (List Char × Cursor)
  | 0, _ => none
  | fuel + 1, c =>
      let (plain, c) := c.span fun x => !isQuotedSpecial x
      let continued (found : List Char) (c : Cursor) :
          Option (List Char × Cursor) := do
        let (more, c) ← quotedRun double fuel c
        some (plain ++ found ++ more, c)
      match c.here with
      | some '\'' =>
          if double then continued ['\''] c.next
          else if c.ahead 1 = some '\'' then continued ['\''] (c.skip 2)
          else some (plain, c)
      | some '"' => if double then some (plain, c) else continued ['"'] c.next
      | some '\\' =>
          if !double then continued ['\\'] c.next
          else
            let c := c.next
            match c.here with
            | none => none
            | some x =>
                match escapeLetter x, escapeDigits x, c.lineBreak? with
                | some y, _, _ => continued [y] c.next
                | none, some width, _ => do
                    let c := c.next
                    let digits := c.rest.take width
                    let n ← hexNumber? digits
                    if digits.length = width ∧ n.isValidChar then
                      continued [Char.ofNat n] (c.skip width)
                    else none
                | none, none, some (_, c) => do
                    let (breaks, c) ← quotedBreaks fuel c
                    continued breaks c
                | none, none, none => none
      | _ => some (plain, c)

/-- The rest of a quoted scalar up to and with its closing quote. -/
def quotedRest (double : Bool) : Nat → Cursor → Option (List Char × Cursor)
  | 0, _ => none
  | fuel + 1, c =>
      if c.here = some (if double then '"' else '\'') then some ([], c.next)
      else do
        let (spaces, c) ← quotedSpaces fuel c
        let (run, c) ← quotedRun double fuel c
        let (more, c) ← quotedRest double fuel c
        some (spaces ++ run ++ more, c)

/-- A quoted scalar that starts here. -/
def quotedScalar (double : Bool) (c : Cursor) :
    Option (List Char × Cursor) := do
  let fuel := c.rest.length + 1
  let (run, c) ← quotedRun double fuel c.next
  let (more, c) ← quotedRest double fuel c
  some (run ++ more, c)

/-! ## Plain scalars -/

/-- Whether a plain scalar ends before this character, given the one after
it. -/
def endsPlain (inFlow : Bool) (x : Char) (next : Option Char) : Bool :=
  x = ' ' || x = '\t' || isBreak x ||
    (x = ':' && (endsWord next ||
      (inFlow && next.any fun y =>
        [',', '[', ']', '\x7b', '\x7d'].contains y))) ||
    (inFlow && [',', '?', '[', ']', '\x7b', '\x7d'].contains x)

/-- The part of a plain scalar before the first character that can end it by
`endsPlain`. -/
def plainRun (inFlow : Bool) : List Char → List Char
  | [] => []
  | x :: rest =>
      if endsPlain inFlow x rest.head? then [] else x :: plainRun inFlow rest

/-- The breaks of empty lines inside a plain scalar; nothing if a mark between
documents follows. -/
def plainBreaks : Nat → Cursor → Option (List Char) × Cursor
  | 0, c => (some [], c)
  | fuel + 1, c =>
      if c.atDocumentMark && c.column = 0 then (none, c)
      else
        let c := c.skipWhile (· = ' ')
        match c.lineBreak? with
        | none => (some [], c)
        | some (b, c) =>
            let (more, c) := plainBreaks fuel c
            (more.map (b :: ·), c)

/-- What stands between two parts of a plain scalar: the text that it becomes if
the scalar goes on, whether a line ended in it, and the place behind it. -/
def plainGap (fuel : Nat) (c : Cursor) : List Char × Bool × Cursor :=
  let (spaces, c) := c.span (· = ' ')
  match c.lineBreak? with
  | none => (spaces, false, c)
  | some (b, c) =>
      match plainBreaks fuel c with
      | (none, c) => ([], true, c)
      | (some more, c) => (foldBreak b more, true, c)

/-- The text of a plain scalar, whether its last gap ended a line, and the place
behind it. In a block its further lines are indented by `indent` columns. -/
def plainParts (inFlow : Bool) (indent : Nat) :
    Nat → Cursor → List Char × Bool × Cursor
  | 0, c => ([], false, c)
  | fuel + 1, c =>
      let run := if c.here = some '#' then [] else plainRun inFlow c.rest
      if run = [] then ([], false, c)
      else
        let (gap, ended, c) := plainGap fuel (c.skip run.length)
        if gap = [] || c.here = some '#' || (!inFlow && c.column < indent) then
          (run, ended, c)
        else
          let (more, ended', c) := plainParts inFlow indent fuel c
          if more = [] then (run, ended || ended', c)
          else (run ++ gap ++ more, ended', c)

/-! ## Block scalars -/

/-- What happens to the line breaks at the end of a block scalar. -/
inductive Chomping where
  | strip
  | clip
  | keep
  deriving DecidableEq, Repr

/-- The chomping that a sign asks for. -/
def Chomping.ofSign? : Option Char → Option Chomping
  | some '+' => some keep
  | some '-' => some strip
  | _ => none

/-- The indentation that a digit asks for. -/
def indentDigit? : Option Char → Option Nat
  | some c => if c.isDigit then some (c.toNat - '0'.toNat) else none
  | none => none

/-- The header of a block scalar behind its first character: chomping and
indentation in either order. -/
def blockHeader (c : Cursor) : Option (Chomping × Option Nat × Cursor) :=
  let signFirst := (Chomping.ofSign? c.here).isSome
  let c₁ := if signFirst then c.next else c
  let indent := indentDigit? c₁.here
  let c₂ := if indent.isSome then c₁.next else c₁
  let chomping :=
    if signFirst then Chomping.ofSign? c.here
    else if indent.isSome then Chomping.ofSign? c₂.here
    else none
  let c₃ := if !signFirst && chomping.isSome then c₂.next else c₂
  let legal := indent ≠ some 0 && (c₃.here = some ' ' || endsLine c₃.here)
  if legal then some (chomping.getD .clip, indent, c₃) else none

/-- The rest of the header line, which may hold a comment. -/
def headerEnd (c : Cursor) : Option Cursor :=
  let c := c.skipWhile (· = ' ')
  let c := if c.here = some '#' then c.skipWhile (fun x => !isBreak x) else c
  match c.here, c.lineBreak? with
  | none, _ => some c
  | some _, some (_, c) => some c
  | some _, none => none

/-- Breaks before the first line of a block scalar, and the deepest column that
the spaces on the way reach. -/
def blockLead : Nat → Nat → Cursor → List Char × Nat × Cursor
  | 0, deepest, c => ([], deepest, c)
  | fuel + 1, deepest, c =>
      let c := c.skipWhile (· = ' ')
      let deepest := max deepest c.column
      match c.lineBreak? with
      | none => ([], deepest, c)
      | some (b, c) =>
          let (more, deepest, c) := blockLead fuel deepest c
          (b :: more, deepest, c)

/-- Breaks between two lines of a block scalar. -/
def blockBreaks (indent : Nat) : Nat → Cursor → List Char × Cursor
  | 0, c => ([], c)
  | fuel + 1, c =>
      let c := c.skipIndent indent
      match c.lineBreak? with
      | none => ([], c)
      | some (b, c) =>
          let (more, c) := blockBreaks indent fuel c
          (b :: more, c)

/-- The lines of a block scalar from here on, where `breaks` lie before the
first of them. -/
def blockLines (folded : Bool) (chomping : Chomping) (indent : Nat) :
    Nat → (lead breaks : List Char) → Cursor → List Char × Cursor
  | 0, _, _, c => ([], c)
  | fuel + 1, lead, breaks, c =>
      if c.column = indent && c.here.isSome then
        let leadingSpace := c.here = some ' ' || c.here = some '\t'
        let (line, c) := c.span fun x => !isBreak x
        let (ended, c) : List Char × Cursor :=
          match c.lineBreak? with
          | some (b, c) => ([b], c)
          | none => ([], c)
        let (following, c) := blockBreaks indent fuel c
        let joins := c.column = indent && c.here.isSome
        let spaceNext := c.here = some ' ' || c.here = some '\t'
        let joint :=
          if joins then
            if folded && ended = ['\n'] && !leadingSpace && !spaceNext then
              if following = [] then [' '] else []
            else ended
          else ended
        let (more, c) :=
          blockLines folded chomping indent fuel joint following c
        (lead ++ breaks ++ line ++ more, c)
      else
        let tail := if chomping = .strip then [] else lead
        (tail ++ (if chomping = .keep then breaks else []), c)

/-- A block scalar that starts here, inside a block indented by `parent`. -/
def blockScalar (folded : Bool) (parent : Int) (c : Cursor) :
    Option (List Char × Cursor) := do
  let (chomping, increment, c) ← blockHeader c.next
  let c ← headerEnd c
  let fuel := c.rest.length + 1
  let least := max 1 (parent + 1).toNat
  let (breaks, indent, c) :=
    match increment with
    | none =>
        let (breaks, deepest, c) := blockLead fuel 0 c
        (breaks, max least deepest, c)
    | some n =>
        let indent := least + n - 1
        let (breaks, c) := blockBreaks indent fuel c
        (breaks, indent, c)
  some (blockLines folded chomping indent fuel [] breaks c)

end JvmTypes.Yaml
