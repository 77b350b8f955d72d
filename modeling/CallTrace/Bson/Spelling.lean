import CallTrace.Bson.Printer
import CallTrace.Bytes.Base64
import CallTrace.Bytes.Hex
import CallTrace.Calendar.Rfc3339
import CallTrace.Decimal.Reading
import CallTrace.Text.Utf8

/-!
Keys under which a document spells a value of another kind, such as `$numberInt`. Such a document
is read as that value; an operand that does not fit its key makes the whole unreadable.

An operand is taken as it stands: keys in it are not looked at, so that it is a text, a number or
octets, or a record of such under fixed keys. The parts of a record may also be the first items of
an array.
-/

namespace CallTrace

/-- What a reserved key spells, alone or with the other of code and scope. -/
inductive Spelling where
  | int32
  | int64
  | double
  | decimal128
  | decimalOctets
  | objectId
  | symbol
  | binary
  | uuid
  | code
  | scope
  | timestamp
  | regex
  | dbPointer
  | dateTime
  | undefined
  | minKey
  | maxKey
  deriving DecidableEq, Repr

namespace Spelling

/-- What a key spells, if it is reserved. -/
def ofKey? (key : String) : Option Spelling :=
  if key = "$numberInt" then some .int32
  else if key = "$numberLong" then some .int64
  else if key = "$numberDouble" then some .double
  else if key = "$numberDecimal" then some .decimal128
  else if key = "$numberDecimalBytes" then some .decimalOctets
  else if key = "$oid" then some .objectId
  else if key = "$symbol" then some .symbol
  else if key = "$binary" then some .binary
  else if key = "$uuid" then some .uuid
  else if key = "$code" then some .code
  else if key = "$scope" then some .scope
  else if key = "$timestamp" then some .timestamp
  else if key = "$regularExpression" then some .regex
  else if key = "$dbPointer" then some .dbPointer
  else if key = "$date" then some .dateTime
  else if key = "$undefined" then some .undefined
  else if key = "$minKey" then some .minKey
  else if key = "$maxKey" then some .maxKey
  else none

/-- What stands behind a reserved key. Of an array only those items are known that come before the
first that cannot be read. -/
inductive Operand where
  | scalar (value : Bson)
  | record (fields : List (String × Operand))
  | items (known : List Operand) (whole : Bool)

namespace Operand

/-! ## Scalars -/

/-- The text of an operand: a string, or the well-formed text in a plain binary. -/
def text? : Operand → Option String
  | .scalar (.string s) => some s
  | .scalar (.binary subtype bytes) => if subtype = 0 then Utf8.decode? bytes else none
  | _ => none

/-- The number of an operand, if it is an integer from zero to `bound`. -/
def upTo? (bound : Nat) (operand : Operand) : Option Nat :=
  let n? := match operand with
    | .scalar (.int32 n) => some n.toInt
    | .scalar (.int64 n) => some n.toInt
    | _ => none
  (n?.filter fun n : Int => 0 ≤ n ∧ n ≤ bound).map Int.toNat

/-- An integer of a range that an operand's text spells. -/
def int? (low high : Int) (operand : Operand) : Option Int := do
  let s ← operand.text?
  Numeral.signedWithin? 10 low high s.toList

/-- The identifier of an operand: its digits as text, or its octets in a plain binary. -/
def id? : Operand → Option ObjectId
  | .scalar (.string s) => (Hex.decodeChars? s.toList).bind ObjectId.ofBytes?
  | .scalar (.binary subtype bytes) => if subtype = 0 then ObjectId.ofBytes? bytes else none
  | _ => none

/-- The octets of an operand: those of a plain binary or of a text, or the numbers in an array. -/
def octets? : Operand → Option Bytes
  | .scalar (.string s) => some (Utf8.encode s)
  | .scalar (.binary subtype bytes) => if subtype = 0 then some bytes else none
  | .items known true => known.mapM fun item => (item.upTo? 255).map UInt8.ofNat
  | _ => none

/-- The octets in groups of digits, of the lengths that universal identifiers have. -/
def groupedOctets? (cs : List Char) : Option Bytes :=
  let groups := cs.splitOn '-'
  if groups.map List.length = [8, 4, 4, 4, 12] then Hex.decodeChars? groups.flatten else none

/-- The octets of a universal identifier: digits without hyphens, or groups between hyphens, which
may stand in braces or behind `urn:uuid:`. -/
def uuid? (operand : Operand) : Option Bytes := do
  let cs := (← operand.text?).toList
  if cs.length = 32 then Hex.decodeChars? cs
  else if cs.head? = some '\x7b' ∧ cs.getLast? = some '\x7d' then
    groupedOctets? (cs.drop 1).dropLast
  else if "urn:uuid:".toList.isPrefixOf cs then groupedOctets? (cs.drop 9)
  else groupedOctets? cs

/-! ## Records -/

/-- The parts of a record with exactly these keys, in any order, or as the first items of an array,
in this one. -/
def parts? (keys : List String) : Operand → Option (List Operand)
  | .record fields =>
    if fields.length = keys.length then keys.mapM fun key => fields.lookup key else none
  | .items known _ => if known.length < keys.length then none else some (known.take keys.length)
  | .scalar _ => none

/-- The subtype and the octets of a binary. -/
def binary? (operand : Operand) : Option (UInt8 × Bytes) := do
  let [octets, subtype] ← operand.parts? ["base64", "subType"] | none
  let octets ← octets.text?.bind Base64.decode?
  let [subtype] ← subtype.text?.bind fun s => Hex.decodeChars? s.toList | none
  some (subtype, octets)

/-- The time and the increment of a timestamp. -/
def timestamp? (operand : Operand) : Option (UInt32 × UInt32) := do
  let [time, increment] ← operand.parts? ["t", "i"] | none
  some (UInt32.ofNat (← time.upTo? 0xFFFFFFFF), UInt32.ofNat (← increment.upTo? 0xFFFFFFFF))

/-- The pattern and the options of a regular expression. -/
def regex? (operand : Operand) : Option (String × String) := do
  let [pattern, options] ← operand.parts? ["pattern", "options"] | none
  some (← pattern.text?, ← options.text?)

/-- The digits of an identifier in a record of its own, or one that stands for itself. -/
def pointedId? : Operand → Option ObjectId
  | .scalar (.objectId id) => some id
  | operand => do
    let [digits] ← operand.parts? ["$oid"] | none
    let s ← digits.text?
    (Hex.decodeChars? s.toList).bind ObjectId.ofBytes?

/-- The name space and the identifier of a pointer. -/
def dbPointer? (operand : Operand) : Option (String × ObjectId) := do
  let [space, id] ← operand.parts? ["$ref", "$id"] | none
  some (← space.text?, ← id.pointedId?)

/-- The milliseconds of a moment: a number in a record or array of its own, or a text of RFC 3339,
of which the part below a millisecond is dropped. -/
def millis? (operand : Operand) : Option Int64 :=
  let number (n : Operand) : Option Int64 :=
    (n.int? Int64.minValue.toInt Int64.maxValue.toInt).map Int64.ofInt
  match operand with
  | .record [("$numberLong", n)] => number n
  | .items [n] true => number n
  | operand => do
    let s ← operand.text?
    let nanos ← Rfc3339.nanos? s.toList
    some (Int64.ofInt (nanos.tdiv 1000000))

end Operand

/-- The value that a reserved key spells with an operand. A scope spells nothing without its code,
and a code is one without a scope. -/
def value? (spelling : Spelling) (operand : Operand) : Option Bson :=
  match spelling with
  | .int32 =>
    (operand.int? Int32.minValue.toInt Int32.maxValue.toInt).map fun n => .int32 (Int32.ofInt n)
  | .int64 =>
    (operand.int? Int64.minValue.toInt Int64.maxValue.toInt).map fun n => .int64 (Int64.ofInt n)
  | .double => (operand.text?.bind Binary64.ofText?).map .double
  | .decimal128 => (operand.text?.bind Decimal128.ofText?).map .decimal128
  | .decimalOctets => (operand.octets?.bind Decimal128.ofOctets?).map .decimal128
  | .objectId => operand.id?.map .objectId
  | .symbol => operand.text?.map .symbol
  | .binary => operand.binary?.map fun (subtype, octets) => .binary subtype octets
  | .uuid => operand.uuid?.map fun octets => .binary 4 octets
  | .code => operand.text?.map .code
  | .scope => none
  | .timestamp => operand.timestamp?.map fun (time, increment) => .timestamp time increment
  | .regex =>
    operand.regex?.map fun (pattern, options) => .regex pattern (Bson.sortOptions options)
  | .dbPointer => operand.dbPointer?.map fun (space, id) => .dbPointer space id
  | .dateTime => operand.millis?.map .dateTime
  | .undefined =>
    match operand with
    | .scalar (.boolean true) => some .undefined
    | _ => none
  | .minKey => if operand.upTo? 255 = some 1 then some .minKey else none
  | .maxKey => if operand.upTo? 255 = some 1 then some .maxKey else none

end Spelling

end CallTrace
