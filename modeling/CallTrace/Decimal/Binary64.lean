/-!
Binary floating point of 64 bits, carried by its bits so that statements about it are statements
about numbers: `shape` decodes a value into an integer times a power of two, and `ofRatio` rounds
any ratio to the nearest value, ties to the even one.
-/

namespace CallTrace

/-- The bits of a binary64 value: sign, eleven bits of exponent, fifty-two of fraction. -/
structure Binary64 where
  bits : UInt64
  deriving DecidableEq, Repr, Inhabited

namespace Binary64

/-- What a value stands for; a finite one for `m * 2 ^ q`, negated if asked. -/
inductive Shape where
  | nan
  | infinite (negative : Bool)
  | finite (negative : Bool) (m : Nat) (q : Int)
  deriving DecidableEq, Repr

/-- The value of the sign bit. -/
def signBit : Nat := 0x8000000000000000

/-- How many fractions there are for one exponent. -/
def fractions : Nat := 0x10000000000000

/-- The value's sign bit. -/
def isNegative (x : Binary64) : Bool := x.bits.toNat / signBit == 1

/-- What the bits stand for. -/
def shape (x : Binary64) : Shape :=
  let fraction : Nat := x.bits.toNat % fractions
  let exponent : Nat := x.bits.toNat / fractions % 2048
  if exponent = 2047 then
    if fraction = 0 then .infinite x.isNegative else .nan
  else if exponent = 0 then .finite x.isNegative fraction (-1074)
  else .finite x.isNegative (fraction + fractions) ((exponent : Int) - 1075)

/-- Whether the value is no number. -/
def isNaN (x : Binary64) : Bool := x.shape == .nan

/-- Equality that makes no difference between the many bit patterns that are no number. -/
def Same (x y : Binary64) : Prop := x = y ∨ (x.isNaN = true ∧ y.isNaN = true)

/-- The value with the given sign and the given bits below it. -/
def signed (negative : Bool) (magnitude : Nat) : Binary64 :=
  ⟨UInt64.ofNat (magnitude + if negative then signBit else 0)⟩

/-- A value that is no number. -/
def nan : Binary64 := ⟨0x7FF8000000000000⟩

/-- The infinity of the given sign. -/
def infinity (negative : Bool) : Binary64 := signed negative (2047 * fractions)

/-- Positive zero. -/
def zero : Binary64 := ⟨0⟩

/-- A quotient rounded to the nearest integer, a half to the even one. -/
def roundDiv (n d : Nat) : Nat :=
  let q := n / d
  let twice := 2 * (n % d)
  if twice < d then q
  else if twice > d then q + 1
  else q + q % 2

/-- A quotient divided by a power of two, as numerator and denominator. -/
def scaled (num den : Nat) (q : Int) : Nat × Nat :=
  if 0 ≤ q then (num, den <<< q.toNat) else (num <<< (-q).toNat, den)

/-- The value nearest to `num / den`, ties to the even one; beyond the largest, infinity. -/
def ofRatio (negative : Bool) (num den : Nat) : Binary64 :=
  if num = 0 then signed negative 0
  else
    let size : Int := (num.log2 : Int) - den.log2
    let q₀ := max (size - 53) (-1074)
    let first := scaled num den q₀
    let q := if 2 * fractions ≤ first.1 / first.2 then q₀ + 1 else q₀
    let exact := scaled num den q
    let bits := (q + 1074).toNat * fractions + roundDiv exact.1 exact.2
    if 2047 * fractions ≤ bits then infinity negative else signed negative bits

/-- The value nearest to an integer. -/
def ofInt (n : Int) : Binary64 := ofRatio (n < 0) n.natAbs 1

/-- The integer reached by dropping the fraction, clamped to 64 bits; zero for what is no number. -/
def toInt64 (x : Binary64) : Int64 :=
  match x.shape with
  | .nan => 0
  | .infinite negative => if negative then Int64.minValue else Int64.maxValue
  | .finite negative m q =>
    let size := if 0 ≤ q then m <<< q.toNat else m >>> (-q).toNat
    let n : Int := if negative then -(size : Int) else size
    Int64.ofInt (max Int64.minValue.toInt (min Int64.maxValue.toInt n))

end Binary64

end CallTrace
