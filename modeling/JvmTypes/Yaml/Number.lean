import JvmTypes.Document

/-!
# Plain scalars that are not text

What a plain scalar means besides its text: nothing, a truth value, a whole
number in one of five notations, or a number with a decimal point. In numbers an
underscore between digits has no meaning.
-/

namespace JvmTypes.Yaml

/-- The spellings of nothing. -/
def nullWords : List String := ["", "~", "null", "Null", "NULL"]

/-- The spellings of true. -/
def trueWords : List String :=
  ["yes", "Yes", "YES", "true", "True", "TRUE", "on", "On", "ON"]

/-- The spellings of false. -/
def falseWords : List String :=
  ["no", "No", "NO", "false", "False", "FALSE", "off", "Off", "OFF"]

/-- The value of a digit in a base up to 16. -/
def digitValue? (base : Nat) (c : Char) : Option Nat :=
  let value :=
    if '0' ≤ c ∧ c ≤ '9' then some (c.toNat - '0'.toNat)
    else if 'a' ≤ c ∧ c ≤ 'f' then some (c.toNat - 'a'.toNat + 10)
    else if 'A' ≤ c ∧ c ≤ 'F' then some (c.toNat - 'A'.toNat + 10)
    else none
  value.filter (· < base)

/-- The value of digits in a base by `digitValue?`, underscores apart. -/
def digits? (base : Nat) (cs : List Char) : Option Nat :=
  cs.foldlM
    (fun n c => if c = '_' then some n
      else (digitValue? base c).map (base * n + ·)) 0

/-- A sign and what follows it. -/
def splitSign : List Char → Bool × List Char
  | '-' :: rest => (true, rest)
  | '+' :: rest => (false, rest)
  | cs => (false, cs)

/-- Whether a text starts with a decimal digit. -/
def startsWithDigit (cs : List Char) : Bool := cs.head?.any Char.isDigit

/-- The parts of a text between colons. -/
def colonParts (cs : List Char) : List (List Char) :=
  cs.splitOn ':'

/-- A part of a number in base 60: one digit, or two below 60. -/
def sixtieth? : List Char → Option Nat
  | [d] => digitValue? 10 d
  | [t, d] => do
      let tens ← digitValue? 6 t
      let ones ← digitValue? 10 d
      some (10 * tens + ones)
  | _ => none

/-- A whole number without its sign. -/
def natural? (cs : List Char) : Option Nat :=
  match cs with
  | '0' :: 'b' :: rest => if rest = [] then none else digits? 2 rest
  | '0' :: 'x' :: rest => if rest = [] then none else digits? 16 rest
  | '0' :: rest => digits? 8 rest
  | _ =>
      if startsWithDigit cs then
        match colonParts cs with
        | [whole] => digits? 10 whole
        | head :: parts => do
            let first ← digits? 10 head
            parts.foldlM (fun n part => (sixtieth? part).map (60 * n + ·)) first
        | [] => none
      else none

/-- A whole number: `natural?` behind a sign, if there is one. -/
def integer? (cs : List Char) : Option Int :=
  let (negative, rest) := splitSign cs
  (natural? rest).map fun n => if negative then -(n : Int) else n

/-- The exponent of a number with a decimal point, which needs its sign. -/
def exponent? : List Char → Option Int
  | [] => some 0
  | e :: sign :: rest =>
      if (e = 'e' || e = 'E') && !rest.isEmpty && rest.all Char.isDigit then
        if sign = '-' then (digits? 10 rest).map fun n => -(n : Int)
        else if sign = '+' then (digits? 10 rest).map fun n => (n : Int)
        else none
      else none
  | _ => none

/-- Whether a character is a decimal digit or an underscore. -/
def isDigitOrGap (c : Char) : Bool := c.isDigit || c = '_'

/-- The number `digits * 10 ^ exponent`. -/
def scaled (digits : Nat) (exponent : Int) : Float :=
  Float.ofScientific digits (exponent < 0) exponent.natAbs

/-- A number with a decimal point, without its sign. -/
def positive? (signed : Bool) (cs : List Char) : Option Float := do
  if cs = ['.', 'i', 'n', 'f'] ∨ cs = ['.', 'I', 'n', 'f'] ∨
      cs = ['.', 'I', 'N', 'F'] then
    return 1.0 / 0.0
  if !signed ∧ (cs = ['.', 'n', 'a', 'n'] ∨ cs = ['.', 'N', 'a', 'N'] ∨
        cs = ['.', 'N', 'A', 'N']) then
    return 0.0 / 0.0
  let whole := cs.takeWhile fun c => isDigitOrGap c || c = ':'
  match cs.drop whole.length with
  | '.' :: rest =>
      let fraction := rest.takeWhile isDigitOrGap
      let places := (fraction.filter Char.isDigit).length
      let tail := rest.drop fraction.length
      if whole.contains ':' then
        match colonParts whole with
        | head :: parts =>
            if tail = [] && startsWithDigit head then
              let first ← digits? 10 head
              let n ← parts.foldlM
                  (fun n part => (sixtieth? part).map (60 * n + ·)) first
              let m ← digits? 10 fraction
              return scaled (n * Nat.pow 10 places + m) (-(places : Int))
            else none
        | [] => none
      else
        let legal := if whole = [] then !signed && startsWithDigit fraction
          else startsWithDigit whole
        let exponent ← exponent? tail
        let n ← digits? 10 (whole ++ fraction)
        if legal then return scaled n (exponent - places) else none
  | _ => none

/-- A number with a decimal point: `positive?` behind a sign, if there is
one. -/
def fraction? (cs : List Char) : Option Float :=
  let (negative, rest) := splitSign cs
  (positive? (rest.length ≠ cs.length) rest).map fun x =>
    if negative then -x else x

/-- What a plain scalar means: nothing, a truth value, a number by `integer?` or
`fraction?`, or else its own text. -/
def plainValue (cs : List Char) : Document :=
  let text := String.ofList cs
  if nullWords.contains text then .null
  else if trueWords.contains text then .bool true
  else if falseWords.contains text then .bool false
  else
    match fraction? cs, integer? cs with
    | some x, _ => .float x
    | none, some n => .int n
    | none, none => .str text

end JvmTypes.Yaml
