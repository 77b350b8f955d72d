import CallTrace.Value.Basic

/-!
The conversions that a description can ask for. By default 32-bit integers are taken as unsigned,
also within arrays; the tag `p` turns an integer into a pointer's text, padded to its width.
-/

namespace CallTrace

/-- How a positional value becomes an argument value. -/
inductive Converter where
  | default
  | pointer
  deriving DecidableEq, Repr

namespace Converter

/-- The conversion that a tag asks for, if it is known. -/
def ofTag? (tag : String) : Option Converter :=
  if tag = "p" then some .pointer else none

mutual

/-- A value with 32-bit integers taken as unsigned. -/
def convertDefault : Bson → Value
  | .int32 n => .int n.toUInt32.toUInt64.toInt64
  | .array items => .list (convertItems items)
  | .int64 n => .int n
  | other => Value.ofBson other

/-- Several values with 32-bit integers taken as unsigned. -/
def convertItems : List Bson → List Value
  | [] => []
  | item :: rest => convertDefault item :: convertItems rest

end

/-- The text of a pointer of `width` digits. -/
def pointerText (width n : Nat) : String := "0x" ++ Hex.padded width n

/-- Convert a value. -/
def apply : Converter → Bson → Value
  | .pointer, .int64 n => .text (pointerText 16 n.toUInt64.toNat)
  | .pointer, .int32 n => .text (pointerText 8 n.toUInt32.toNat)
  | _, raw => convertDefault raw

end Converter

end CallTrace
