import CallTrace.Bson.Basic
import CallTrace.Bytes.Base64
import CallTrace.Bytes.Hex
import CallTrace.Calendar.Date
import CallTrace.Decimal.Layout

/-!
The text that stands for a BSON value where a text is wanted. Strings are quoted but not escaped,
so the text is for reading by people only.
-/

namespace CallTrace

/-- Floating-point values in texts have no exponent and no point where they are whole. Of two
equally near texts the one farther from zero is written. -/
def Layout.plain : Layout := ⟨none, false, false, .away, "NaN", "inf"⟩

namespace Bson

/-- The text of a fraction of a second in milliseconds: at least one digit, no zeros behind it. -/
def fractionText (millis : Nat) : String :=
  if millis % 100 = 0 then Numeral.padded 1 (millis / 100)
  else if millis % 10 = 0 then Numeral.padded 2 (millis / 10)
  else Numeral.padded 3 millis

/-- The text of a moment; one beyond the years of six digits is its number of milliseconds. -/
def dateTimeText (millis : Int64) : String :=
  let n := millis.toInt
  let seconds := n / 1000
  let date := Date.ofDays (seconds / 86400)
  if date.year < -999999 ∨ 999999 < date.year then toString n
  else
    let s := (seconds % 86400).toNat
    date.text ++ " " ++ toString (s / 3600) ++ ":" ++ Numeral.padded 2 (s / 60 % 60) ++ ":"
      ++ Numeral.padded 2 (s % 60) ++ "." ++ fractionText (n % 1000).toNat ++ " +00:00:00"

mutual

/-- The text of a value. -/
def text : Bson → String
  | .double x => Layout.plain.text x
  | .string s => "\"" ++ s ++ "\""
  | .document [] => "\x7b\x7d"
  | .document fields => "\x7b " ++ ", ".intercalate (fieldTexts fields) ++ " \x7d"
  | .array items => "[" ++ ", ".intercalate (itemTexts items) ++ "]"
  | .binary subtype bytes =>
    "Binary(0x" ++ Hex.padded 1 subtype.toNat ++ ", " ++ Base64.encode bytes ++ ")"
  | .undefined => "undefined"
  | .objectId id => "ObjectId(\"" ++ Hex.encode id.bytes ++ "\")"
  | .boolean b => if b then "true" else "false"
  | .dateTime millis => "DateTime(\"" ++ dateTimeText millis ++ "\")"
  | .null => "null"
  | .regex pattern options => "/" ++ pattern ++ "/" ++ options
  | .dbPointer space id => "DbPointer(" ++ space ++ ", " ++ Hex.encode id.bytes ++ ")"
  | .code body => body
  | .symbol s => "Symbol(\"" ++ s ++ "\")"
  | .codeWithScope body _ => body
  | .int32 n => toString n.toInt
  | .timestamp time increment =>
    "Timestamp(" ++ toString time.toNat ++ ", " ++ toString increment.toNat ++ ")"
  | .int64 n => toString n.toInt
  | .decimal128 d => d.text
  | .minKey => "MinKey"
  | .maxKey => "MaxKey"

/-- The texts of the fields of a document. -/
def fieldTexts : List (String × Bson) → List String
  | [] => []
  | (key, value) :: rest => ("\"" ++ key ++ "\": " ++ text value) :: fieldTexts rest

/-- The texts of the items of an array. -/
def itemTexts : List Bson → List String
  | [] => []
  | item :: rest => text item :: itemTexts rest

end

end Bson

end CallTrace
