import CallTrace.Decimal.Binary64
import CallTrace.Text.Numeral

/-!
Decimal text read as the nearest binary64 value: digits with an optional point and an optional
exponent, or one of the words for infinity and for what is no number, in any case.

The size of an exponent stops growing once it has reached `exponentCap`, far beyond every exponent
of a value. So the digits behind matter only where as many digits of the mantissa make up for it.
-/

namespace CallTrace.Binary64

/-- The value nearest to `m * 10 ^ e`. Exponents far beyond the range need no exact arithmetic. -/
def ofScientific (negative : Bool) (m : Nat) (e : Int) : Binary64 :=
  let size := (Numeral.decimal m).length + e
  if m = 0 ∨ size < -400 then signed negative 0
  else if 400 < size then infinity negative
  else if 0 ≤ e then ofRatio negative (m * Nat.pow 10 e.toNat) 1
  else ofRatio negative m (Nat.pow 10 (-e).toNat)

/-- The decimal digits in front, and what follows them. -/
def spanDigits (cs : List Char) : List Char × List Char :=
  (cs.takeWhile Char.isDigit, cs.dropWhile Char.isDigit)

/-- The size from which on an exponent takes no further digits. -/
def exponentCap : Nat := 0x10000

/-- The size that an exponent reaches by some digits, behind those read before. -/
def exponentFrom? (size : Nat) : List Char → Option Nat
  | [] => some size
  | c :: rest => do
    let d ← Numeral.digit? 10 c
    exponentFrom? (if size < exponentCap then 10 * size + d else size) rest

/-- The size of an exponent of one or more digits. -/
def exponentSize? : List Char → Option Nat
  | [] => none
  | cs => exponentFrom? 0 cs

/-- The exponent after a mantissa: absent, or a mark, at most one sign, and digits up to the end. -/
def exponent? : List Char → Option Int
  | [] => some 0
  | c :: rest =>
    if c = 'e' ∨ c = 'E' then
      match rest with
      | '-' :: ds => (exponentSize? ds).map fun n => -(n : Int)
      | '+' :: ds => (exponentSize? ds).map fun n => (n : Int)
      | ds => (exponentSize? ds).map fun n => (n : Int)
    else none

/-- More significant digits than any value has, or any point halfway between two values. -/
def digitLimit : Nat := 800

/-- Few digits that stand for the same value as all the digits of a mantissa, and the power of ten
that they are short of. Behind the limit it matters only whether there is a digit but zero. -/
def condense (ds : List Char) : List Char × Nat :=
  let significant := ds.dropWhile (· = '0')
  let kept := significant.take digitLimit
  let beyond := significant.drop digitLimit
  if beyond.all (· = '0') then (kept, beyond.length) else (kept ++ ['1'], beyond.length - 1)

/-- A value from an unsigned numeral with an optional point and an optional exponent. -/
def unsigned? (negative : Bool) (cs : List Char) : Option Binary64 := do
  let (whole, rest) := spanDigits cs
  let (fraction, rest) := match rest with
    | '.' :: after => spanDigits after
    | _ => ([], rest)
  let e ← exponent? rest
  if whole.isEmpty && fraction.isEmpty then none
  else
    let (ds, short) := condense (whole ++ fraction)
    let m ← Numeral.digitsFrom? 10 0 ds
    pure (ofScientific negative m (e + short - fraction.length))

/-- A value from a numeral or one of the words `inf`, `infinity` and `nan`. -/
def magnitude? (negative : Bool) (cs : List Char) : Option Binary64 :=
  let lower := cs.map Char.toLower
  if lower = ['i', 'n', 'f'] ∨ lower = ['i', 'n', 'f', 'i', 'n', 'i', 't', 'y'] then
    some (infinity negative)
  else if lower = ['n', 'a', 'n'] then some nan
  else unsigned? negative cs

/-- The value that a text spells, with at most one sign in front. -/
def ofText? (s : String) : Option Binary64 :=
  match s.toList with
  | '-' :: rest => magnitude? true rest
  | '+' :: rest => magnitude? false rest
  | cs => magnitude? false cs

end CallTrace.Binary64
