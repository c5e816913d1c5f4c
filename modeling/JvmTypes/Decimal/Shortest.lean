import JvmTypes.Decimal.Binary

/-!
# Shortest decimal text

A floating-point number is written with the fewest digits that read back as it,
and of several such digit strings the nearest. The search works on whole
numbers: `Scaled` holds the number and the ends of the interval that rounds to
it as multiples of one unit.
-/

namespace JvmTypes.Decimal

/-- A number and the ends of the interval that rounds to it, all as fractions
over one denominator. The ends belong to the interval when `closed` says so. -/
structure Scaled where
  low : Nat
  value : Nat
  high : Nat
  denominator : Nat
  closed : Bool

/-- The interval of numbers that round to the positive binary fraction `x`. The
gap below a power of two is half the gap above it. -/
def Scaled.ofBinary (x : Binary) : Scaled :=
  let lowGap :=
    if x.mantissa = 0x10000000000000 ∧ -1074 < x.exponent then 1 else 2
  let factor := if 0 ≤ x.exponent then Nat.pow 2 x.exponent.toNat else 1
  let divisor := if 0 ≤ x.exponent then 1 else Nat.pow 2 (-x.exponent).toNat
  { low := (4 * x.mantissa - lowGap) * factor
    value := 4 * x.mantissa * factor
    high := (4 * x.mantissa + 2) * factor
    denominator := 4 * divisor
    closed := x.mantissa % 2 = 0 }

/-- The number `digits * 10 ^ exponent`. -/
structure Digits where
  digits : Nat
  exponent : Int
  deriving DecidableEq, Repr

/-- Numerator and denominator of `10 ^ exponent`. -/
def powerOfTen (exponent : Int) : Nat × Nat :=
  if 0 ≤ exponent then (Nat.pow 10 exponent.toNat, 1)
  else (1, Nat.pow 10 (-exponent).toNat)

/-- Whether the number `d` lies in the interval `s`, whose ends count when it is
`closed`. -/
def Scaled.admits (s : Scaled) (d : Digits) : Bool :=
  let unit := powerOfTen d.exponent
  let point := d.digits * unit.1 * s.denominator
  let low := s.low * unit.2
  let high := s.high * unit.2
  if s.closed then decide (low ≤ point ∧ point ≤ high)
  else decide (low < point ∧ point < high)

/-- The two neighbours of the number among the multiples of `10 ^ exponent` that
lie in the interval; the nearer of them if both do, and of equally near the
even. -/
def Scaled.onGrid (s : Scaled) (exponent : Int) : Option Digits :=
  let unit := powerOfTen exponent
  let step := unit.1 * s.denominator
  let point := s.value * unit.2
  let below : Digits := ⟨point / step, exponent⟩
  let above : Digits := ⟨point / step + 1, exponent⟩
  let gap := 2 * (point % step)
  match s.admits below, s.admits above with
  | true, true =>
      if gap < step ∨ (gap = step ∧ below.digits % 2 = 0) then some below
      else some above
  | true, false => some below
  | false, true => some above
  | false, false => none

/-- A point of the first grid, from coarse to fine, that has one by `onGrid`. A
grid ten times coarser has one digit less, so no point found ends in a zero. -/
def Scaled.search (s : Scaled) (exponent : Int) : Nat → Option Digits
  | 0 => none
  | grids + 1 =>
      match s.onGrid exponent with
      | some d => some d
      | none => s.search (exponent - 1) grids

/-- The shortest digits of a positive binary fraction. No floating-point number
reaches `10 ^ 309`, and 800 grids go below the finest that is needed. -/
def shortest (x : Binary) : Digits :=
  ((Scaled.ofBinary x).search 309 800).getD ⟨x.mantissa, 0⟩

/-- How decimal text is laid out. -/
structure Layout where
  /-- The lowest decimal exponent that is written without an exponent. -/
  low : Int
  /-- The lowest decimal exponent above `low` that is written with one again. -/
  high : Int
  /-- The least number of digits of an exponent. -/
  exponentDigits : Nat
  /-- The texts for what is not finite. -/
  nan : String
  infinity : String

/-- A number between `0.0001` and `10 ^ 16` has a point and at least one digit
behind it; any other has an exponent with its sign and at least two digits. -/
def plainLayout : Layout := ⟨-4, 16, 2, "nan", "inf"⟩

/-- Zeros in front of a text up to a width. -/
def padZeros (width : Nat) (text : List Char) : List Char :=
  List.replicate (width - text.length) '0' ++ text

/-- The text of digits `d₀d₁…` that stand for `d₀.d₁… * 10 ^ exponent`. -/
def Layout.digits (layout : Layout) (digits : List Char) (exponent : Int) :
    List Char :=
  if layout.low ≤ exponent ∧ exponent < layout.high then
    if exponent < 0 then
      '0' :: '.' :: (List.replicate (-exponent - 1).toNat '0' ++ digits)
    else
      let whole := exponent.toNat + 1
      let padded := digits ++ List.replicate (whole - digits.length) '0'
      let tail := padded.drop whole
      padded.take whole ++ '.' :: (if tail = [] then ['0'] else tail)
  else
    let head := digits.take 1
    let tail := digits.drop 1
    head ++ (if tail = [] then [] else '.' :: tail) ++
      'e' :: (if exponent < 0 then '-' else '+') ::
      padZeros layout.exponentDigits (Nat.toDigits 10 exponent.natAbs)

/-- The text of a floating-point number in a `Layout`. -/
def Layout.text (layout : Layout) (x : Float) : String :=
  match Reading.ofFloat x with
  | .nan => layout.nan
  | .infinite negative => (if negative then "-" else "") ++ layout.infinity
  | .finite value =>
      let body :=
        if value.mantissa = 0 then layout.digits ['0'] 0
        else
          let found := shortest value
          let digits := Nat.toDigits 10 found.digits
          layout.digits digits (found.exponent + digits.length - 1)
      (if value.negative then "-" else "") ++ String.ofList body

end JvmTypes.Decimal
