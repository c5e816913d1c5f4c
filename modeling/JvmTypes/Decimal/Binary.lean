/-!
# Binary fractions

A finite floating-point number is a whole number times a power of two. This
module takes it apart into the two and compares it with whole numbers exactly.
-/

namespace JvmTypes.Decimal

/-- The number `mantissa * 2 ^ exponent`, negated if `negative` says so. -/
structure Binary where
  negative : Bool
  mantissa : Nat
  exponent : Int
  deriving DecidableEq, Repr

/-- What a floating-point number is: not a number, infinite, or a `Binary`
fraction with a sign. -/
inductive Reading where
  | nan
  | infinite (negative : Bool)
  | finite (value : Binary)
  deriving DecidableEq, Repr

/-- The meaning of the 64 bits of a floating-point number: a sign, eleven bits
for the scale and fifty-two for the fraction. -/
def Reading.ofBits (bits : Nat) : Reading :=
  let negative : Bool := bits / 0x8000000000000000 % 2 = 1
  let scale : Nat := bits / 0x10000000000000 % 0x800
  let fraction : Nat := bits % 0x10000000000000
  if scale = 0x7FF then
    if fraction = 0 then .infinite negative else .nan
  else if scale = 0 then .finite ⟨negative, fraction, -1074⟩
  else .finite ⟨negative, 0x10000000000000 + fraction, (scale : Int) - 1075⟩

/-- The meaning of a floating-point number, by its bits as `Reading.ofBits`
takes them. -/
def Reading.ofFloat (x : Float) : Reading := .ofBits x.toBits.toNat

/-- The whole number that the binary fraction `x` is equal to, if there is
one. -/
def Binary.toInt? (x : Binary) : Option Int :=
  let sign (n : Nat) : Int := if x.negative then -(n : Int) else n
  if 0 ≤ x.exponent then some (sign (x.mantissa * Nat.pow 2 x.exponent.toNat))
  else
    let unit := Nat.pow 2 (-x.exponent).toNat
    if x.mantissa % unit = 0 then some (sign (x.mantissa / unit)) else none

/-- The whole number that a floating-point number is equal to, if there is
one. -/
def toInt? (x : Float) : Option Int :=
  match Reading.ofFloat x with
  | .finite value => value.toInt?
  | _ => none

end JvmTypes.Decimal
