import CallTrace.Bytes.LittleEndian
import CallTrace.Text.Numeral

/-!
Decimal floating point of 128 bits in the encoding with a binary integer coefficient: a sign,
fourteen bits of exponent, and at most thirty-four digits. Coefficients of more digits count as
zero. A text is read only if its value can be held exactly.
-/

namespace CallTrace

/-- The bits of a decimal128 value, as two words. -/
structure Decimal128 where
  low : UInt64
  high : UInt64
  deriving DecidableEq, Repr

namespace Decimal128

/-- The greatest coefficient: thirty-four nines. -/
def maxCoefficient : Nat := 9999999999999999999999999999999999

/-- A finite value's text, from the decimal digits of its coefficient and its exponent: positional
where the exponent is not positive and at most five zeros follow the point. -/
def finiteText (digits : List Char) (exponent : Int) : List Char :=
  let adjusted := exponent + digits.length - 1
  if exponent ≤ 0 ∧ -6 ≤ adjusted then
    let after := exponent.natAbs
    if after = 0 then digits
    else if digits.length ≤ after then
      '0' :: '.' :: List.replicate (after - digits.length) '0' ++ digits
    else digits.take (digits.length - after) ++ '.' :: digits.drop (digits.length - after)
  else
    let mantissa := match digits with
      | d :: e :: rest => d :: '.' :: e :: rest
      | few => few
    mantissa ++ 'E' :: (if adjusted < 0 then '-' else '+') :: Numeral.decimal adjusted.natAbs

/-- The text of a value. What is no number has no sign. -/
def text (d : Decimal128) : String :=
  let high := d.high.toNat
  let sign := if high >>> 63 = 1 then ['-'] else []
  if high >>> 59 % 16 = 15 then
    if high >>> 58 % 2 = 1 then "NaN" else String.ofList (sign ++ "Infinity".toList)
  else
    let wide := high >>> 61 % 4 = 3
    let biased : Nat := if wide then high >>> 47 % 16384 else high >>> 49 % 16384
    let coefficient := if wide then 0 else (high % 0x2000000000000) <<< 64 + d.low.toNat
    let kept := if maxCoefficient < coefficient then 0 else coefficient
    String.ofList (sign ++ finiteText (Numeral.decimal kept) ((biased : Int) - 6176))

/-- The value of sixteen octets, the least significant first. -/
def ofOctets? (bytes : Bytes) : Option Decimal128 :=
  if bytes.length = 16 then
    some ⟨UInt64.ofNat (LittleEndian.value (bytes.take 8)),
      UInt64.ofNat (LittleEndian.value (bytes.drop 8))⟩
  else none

/-- The value whose high word, its sign apart, is `high`. -/
def signed (negative : Bool) (high low : Nat) : Decimal128 :=
  ⟨UInt64.ofNat low, UInt64.ofNat (high + if negative then 0x8000000000000000 else 0)⟩

/-- The value `m * 10 ^ e` for a coefficient and an exponent in range. -/
def finite (negative : Bool) (m : Nat) (e : Int) : Decimal128 :=
  signed negative ((e + 6176).toNat <<< 49 + m >>> 64) m

/-- The value `m * 10 ^ e` of at most thirty-four digits, if it can be held exactly. An exponent
beyond the range is brought into it by removing zeros from the digits, or by adding some. -/
def ofScientific? (negative : Bool) (m : Nat) (e : Int) : Option Decimal128 :=
  if m = 0 then some (finite negative 0 (max (-6176) (min e 6111)))
  else
    let digits := (Numeral.decimal m).length
    let removed := (-6176 - e).toNat
    let added := (e - 6111).toNat
    if digits < removed ∨ 34 < digits + added ∨ m % Nat.pow 10 removed ≠ 0 then none
    else some (finite negative (m / Nat.pow 10 removed * Nat.pow 10 added) (e + removed - added))

/-- A value from an unsigned numeral in lower case with an optional point and an optional exponent,
which is one of 16 bits also when the point is accounted for. Of its digits all behind the first
thirty-four must be zeros. -/
def unsigned? (negative : Bool) (cs : List Char) : Option Decimal128 := do
  let mantissa := cs.takeWhile (· ≠ 'e')
  let e ← match cs.dropWhile (· ≠ 'e') with
    | [] => some 0
    | _ :: ds => Numeral.signedWithin? 10 (-0x8000) 0x7FFF ds
  let whole := mantissa.takeWhile (· ≠ '.')
  let fraction := (mantissa.dropWhile (· ≠ '.')).drop 1
  let significant := (whole ++ fraction).dropWhile (· = '0')
  let beyond := significant.drop 34
  let m ← Numeral.digitsFrom? 10 0 (significant.take 34)
  if whole.isEmpty && fraction.isEmpty then none
  else if 0x7FFF < fraction.length ∨ e - fraction.length < -0x8000 then none
  else if beyond.all (· = '0') then ofScientific? negative m (e - fraction.length + beyond.length)
  else none

/-- The value that a text spells, with at most one sign in front: a numeral, or one of the words for
infinity and for what is no number, in any case. -/
def ofText? (s : String) : Option Decimal128 :=
  let (negative, cs) := match s.toList with
    | '-' :: rest => (true, rest)
    | '+' :: rest => (false, rest)
    | cs => (false, cs)
  let lower := cs.map Char.toLower
  if lower = "nan".toList then some (signed negative 0x7C00000000000000 0)
  else if lower = "snan".toList then some (signed negative 0x7E00000000000000 0)
  else if lower = "inf".toList ∨ lower = "infinity".toList then
    some (signed negative 0x7800000000000000 0)
  else unsigned? negative lower

end Decimal128

end CallTrace
