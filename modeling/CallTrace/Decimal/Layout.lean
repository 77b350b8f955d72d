import CallTrace.Decimal.Shortest
import CallTrace.Text.Numeral

/-!
How the shortest digits of a binary64 value are laid out: positionally or with an exponent, with or
without a decimal point where the value is whole. A `Layout` holds these decisions, and the one
between two shortest texts that are equally near to the value.
-/

namespace CallTrace

/-- The decisions about the text of a floating-point value. -/
structure Layout where
  /-- The powers of ten of a first digit that are written positionally; all of them if absent. -/
  positional : Option (Int × Int)
  /-- Whether a whole value written positionally ends in `.0`. -/
  pointed : Bool
  /-- Whether a positive exponent has a sign. -/
  plus : Bool
  /-- The digits taken where two shortest texts are equally near to the value. -/
  tie : Tie
  nan : String
  infinity : String

namespace Layout

/-- Digits with a point, so that the last digit stands for the power of ten `k`. -/
def place (pointed : Bool) (ds : List Char) (k : Int) : List Char :=
  if 0 ≤ k then
    ds ++ List.replicate k.toNat '0' ++ (if pointed then ['.', '0'] else [])
  else
    let after := (-k).toNat
    let filled := List.replicate (after + 1 - ds.length) '0' ++ ds
    filled.take (filled.length - after) ++ '.' :: filled.drop (filled.length - after)

/-- Digits with a point after the first, and the exponent of that first digit. -/
def exponential (plus : Bool) (ds : List Char) (e : Int) : List Char :=
  let mantissa := match ds with
    | [] => []
    | [d] => [d]
    | d :: rest => d :: '.' :: rest
  let sign := if e < 0 then ['-'] else if plus then ['+'] else []
  mantissa ++ 'e' :: sign ++ Numeral.decimal e.natAbs

/-- The text of a finite value with the digits `n` and the power of ten `k` of the last. -/
def finite (l : Layout) (n : Nat) (k : Int) : List Char :=
  let ds := Numeral.decimal n
  let e := k + ds.length - 1
  match l.positional with
  | none => place l.pointed ds k
  | some (low, high) =>
    if low ≤ e ∧ e ≤ high then place l.pointed ds k else exponential l.plus ds e

/-- The text of a value. -/
def text (l : Layout) (x : Binary64) : String :=
  match x.shape with
  | .nan => l.nan
  | .infinite negative => (if negative then "-" else "") ++ l.infinity
  | .finite negative m q =>
    let (n, k) := Shortest.digits l.tie m q
    String.ofList ((if negative then ['-'] else []) ++ l.finite n k)

end Layout

end CallTrace
