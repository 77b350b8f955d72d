import CallTrace.Bson.Text
import CallTrace.Bytes.Hex
import CallTrace.Text.Blank
import CallTrace.Text.Utf8

/-!
Argument values after conversion, their text, and their views as numbers. `flagBits?` is the view
that flag tables are searched with: integers as they are, texts as hexadecimal numbers.
-/

namespace CallTrace

/-- A converted argument value. -/
inductive Value where
  | null
  | bool (b : Bool)
  | int (n : Int64)
  | float (x : Binary64)
  | text (s : String)
  | list (items : List Value)
  deriving Inhabited, Repr

/-- Values with their names, in order; names may repeat. -/
abbrev NamedValues := List (String × Value)

namespace Value

/-- The integer of a value, if it is one; a truth value counts as 0 or 1. -/
def asInt? : Value → Option Int64
  | .int n => some n
  | .bool b => some (if b then 1 else 0)
  | _ => none

/-- The number of a value, if it is one; integers are rounded to the nearest. -/
def asFloat? : Value → Option Binary64
  | .int n => some (Binary64.ofInt n.toInt)
  | .float x => some x
  | _ => none

/-- The text of a value, if it is one. -/
def asText? : Value → Option String
  | .text s => some s
  | _ => none

/-- The characters behind one mark of hexadecimal numbers, if there is one in front. -/
def dropHexMark : List Char → List Char
  | '0' :: 'x' :: rest => rest
  | '0' :: 'X' :: rest => rest
  | cs => cs

/-- The 64-bit number that a text spells in hexadecimal digits, between blanks, behind at most one
mark and at most one plus. -/
def hexBits? (s : String) : Option UInt64 := do
  let n ← Numeral.unsignedUpTo? 16 (UInt64.size - 1) (dropHexMark (trim s.toList))
  some (UInt64.ofNat n)

/-- The bits of a value for flag tables. -/
def flagBits? : Value → Option UInt64
  | .int n => some n.toUInt64
  | .bool b => some (if b then 1 else 0)
  | .text s => hexBits? s
  | _ => none

mutual

/-- The text that a value is sent as when it is no integer. -/
def display : Value → String
  | .null => "None"
  | .bool b => if b then "true" else "false"
  | .int n => toString n.toInt
  | .float x => Layout.plain.text x
  | .text s => s
  | .list items => "[" ++ ", ".intercalate (displays items) ++ "]"

/-- The texts of several values. -/
def displays : List Value → List String
  | [] => []
  | item :: rest => display item :: displays rest

end

mutual

/-- A value as it came, without normalisation. Binaries become Latin-1 text, and what has no form of
its own becomes its text. -/
def ofBson : Bson → Value
  | .int64 n => .int n
  | .int32 n => .int n.toInt64
  | .double x => .float x
  | .boolean b => .bool b
  | .string s => .text s
  | .binary _ bytes => .text (Utf8.latin1 bytes)
  | .array items => .list (ofBsons items)
  | .null => .null
  | .undefined => .null
  | other => .text other.text

/-- Several values as they came. -/
def ofBsons : List Bson → List Value
  | [] => []
  | item :: rest => ofBson item :: ofBsons rest

end

mutual

/-- A value as it is written. -/
def toBson : Value → Bson
  | .null => .null
  | .bool b => .boolean b
  | .int n => .int64 n
  | .float x => .double x
  | .text s => .string s
  | .list items => .array (toBsons items)

/-- Several values as they are written. -/
def toBsons : List Value → List Bson
  | [] => []
  | item :: rest => toBson item :: toBsons rest

end

end Value

end CallTrace
