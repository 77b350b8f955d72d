import CallTrace.Bson.Basic
import CallTrace.Bytes.LittleEndian
import CallTrace.Text.Numeral
import CallTrace.Text.Utf8

/-!
The octets of BSON values and documents. A field is a type octet, a key that ends in a zero, and a
payload; a document is its own length in four octets, its fields, and a zero. The options of a
regular expression travel in the order of their characters. Not every value can be written: keys
and the parts of a regular expression hold no zero, and binaries have a greatest length.
`printable` decides this, and `print` is total on top of it.

`payload` says what the octets are. `payloadOnto` writes them in front of what is already there and
counts them, so that nothing is copied or counted again for each document around it;
`payloadOnto_eq` says that the two agree.
-/

namespace CallTrace.Bson

/-- The most octets of a binary. -/
def maxBinary : Nat := 16 * 1024 * 1024

/-- The subtype of binaries that hold a second length. -/
def oldBinary : UInt8 := 2

/-- Whether a text can end in a zero of its own. -/
def zeroFree (s : String) : Bool := !s.toList.contains '\x00'

mutual

/-- Whether a value can be written. -/
def printable : Bson → Bool
  | .document fields => fieldsPrintable fields
  | .array items => itemsPrintable items
  | .binary subtype bytes =>
    decide ((if subtype = oldBinary then bytes.length + 4 else bytes.length) ≤ maxBinary)
  | .regex pattern options => zeroFree pattern && zeroFree options
  | .codeWithScope _ scope => fieldsPrintable scope
  | _ => true

/-- Whether fields can be written. -/
def fieldsPrintable : List (String × Bson) → Bool
  | [] => true
  | (key, value) :: rest => zeroFree key && (printable value && fieldsPrintable rest)

/-- Whether items can be written. -/
def itemsPrintable : List Bson → Bool
  | [] => true
  | item :: rest => printable item && itemsPrintable rest

end

/-- The octet in front of a value's key. -/
def typeOctet : Bson → UInt8
  | .double _ => 0x01
  | .string _ => 0x02
  | .document _ => 0x03
  | .array _ => 0x04
  | .binary .. => 0x05
  | .undefined => 0x06
  | .objectId _ => 0x07
  | .boolean _ => 0x08
  | .dateTime _ => 0x09
  | .null => 0x0A
  | .regex .. => 0x0B
  | .dbPointer .. => 0x0C
  | .code _ => 0x0D
  | .symbol _ => 0x0E
  | .codeWithScope .. => 0x0F
  | .int32 _ => 0x10
  | .timestamp .. => 0x11
  | .int64 _ => 0x12
  | .decimal128 _ => 0x13
  | .minKey => 0xFF
  | .maxKey => 0x7F

/-- A text that ends in a zero. -/
def zeroEnded (s : String) : Bytes := Utf8.encode s ++ [0]

/-- A text behind its length, which counts the zero at its end. -/
def counted (s : String) : Bytes :=
  let octets := Utf8.encode s
  LittleEndian.digits 4 (octets.length + 1) ++ (octets ++ [0])

/-- Contents behind their length and in front of a zero; the length counts itself and the zero. -/
def enclosed (contents : Bytes) : Bytes :=
  LittleEndian.digits 4 (contents.length + 5) ++ (contents ++ [0])

/-- The key of the item at an index. -/
def indexKey (index : Nat) : String := String.ofList (Numeral.decimal index)

/-- The options of a regular expression in the order of their characters. -/
def sortOptions (options : String) : String :=
  String.ofList (options.toList.mergeSort fun a b => a.toNat ≤ b.toNat)

mutual

/-- The octets behind a value's key. -/
def payload : Bson → Bytes
  | .double x => LittleEndian.ofWord64 x.bits
  | .string s => counted s
  | .document fields => enclosed (fieldsOctets fields)
  | .array items => enclosed (itemsOctets 0 items)
  | .binary subtype bytes =>
    if subtype = oldBinary then
      LittleEndian.digits 4 (bytes.length + 4) ++ subtype ::
        (LittleEndian.digits 4 bytes.length ++ bytes)
    else LittleEndian.digits 4 bytes.length ++ subtype :: bytes
  | .undefined => []
  | .objectId id => id.bytes
  | .boolean b => [if b then 1 else 0]
  | .dateTime millis => LittleEndian.ofWord64 millis.toUInt64
  | .null => []
  | .regex pattern options => zeroEnded pattern ++ zeroEnded (sortOptions options)
  | .dbPointer space id => counted space ++ id.bytes
  | .code text => counted text
  | .symbol text => counted text
  | .codeWithScope text scope =>
    let rest := counted text ++ enclosed (fieldsOctets scope)
    LittleEndian.digits 4 (rest.length + 4) ++ rest
  | .int32 n => LittleEndian.ofWord32 n.toUInt32
  | .timestamp time increment => LittleEndian.ofWord32 increment ++ LittleEndian.ofWord32 time
  | .int64 n => LittleEndian.ofWord64 n.toUInt64
  | .decimal128 d => LittleEndian.ofWord64 d.low ++ LittleEndian.ofWord64 d.high
  | .minKey => []
  | .maxKey => []

/-- The octets of fields, in order. -/
def fieldsOctets : List (String × Bson) → Bytes
  | [] => []
  | (key, value) :: rest =>
    typeOctet value :: (zeroEnded key ++ (payload value ++ fieldsOctets rest))

/-- The octets of items as fields, whose keys count up from `index`. -/
def itemsOctets (index : Nat) : List Bson → Bytes
  | [] => []
  | item :: rest =>
    typeOctet item :: (zeroEnded (indexKey index) ++ (payload item ++ itemsOctets (index + 1) rest))

end

/-- Some octets in front of others, with the number of all that count. -/
def putOnto (front : Bytes) (onto : Nat × Bytes) : Nat × Bytes :=
  (front.length + onto.1, front ++ onto.2)

/-- A length that counts itself in front of what it counts. -/
def putLength (onto : Nat × Bytes) : Nat × Bytes :=
  (onto.1 + 4, LittleEndian.digits 4 (onto.1 + 4) ++ onto.2)

mutual

/-- The octets behind a value's key, in front of others, and how many they are. -/
def payloadOnto : Bson → Bytes → Nat × Bytes
  | .document fields, rest => putLength (fieldsOnto fields (1, 0 :: rest))
  | .array items, rest => putLength (itemsOnto 0 items (1, 0 :: rest))
  | .codeWithScope text scope, rest =>
    putLength (putOnto (counted text) (putLength (fieldsOnto scope (1, 0 :: rest))))
  | value, rest => putOnto (payload value) (0, rest)

/-- The octets of fields in front of others, and how many count with those that count there. -/
def fieldsOnto : List (String × Bson) → Nat × Bytes → Nat × Bytes
  | [], onto => onto
  | (key, value) :: more, onto =>
    let later := fieldsOnto more onto
    let written := payloadOnto value later.2
    putOnto (typeOctet value :: zeroEnded key) (written.1 + later.1, written.2)

/-- The octets of items as fields, likewise. -/
def itemsOnto (index : Nat) : List Bson → Nat × Bytes → Nat × Bytes
  | [], onto => onto
  | item :: more, onto =>
    let later := itemsOnto (index + 1) more onto
    let written := payloadOnto item later.2
    putOnto (typeOctet item :: zeroEnded (indexKey index)) (written.1 + later.1, written.2)

end

theorem putLength_enclosed (contents rest : Bytes) :
    putLength (contents.length + 1, contents ++ 0 :: rest)
      = ((enclosed contents).length, enclosed contents ++ rest) := by
  simp [putLength, enclosed, Nat.add_comm, Nat.add_assoc]

mutual

theorem payloadOnto_eq (value : Bson) (rest : Bytes) :
    payloadOnto value rest = ((payload value).length, payload value ++ rest) := by
  cases value with
  | document fields =>
    rw [payloadOnto, fieldsOnto_eq fields, payload, ← putLength_enclosed]
  | array items =>
    rw [payloadOnto, itemsOnto_eq 0 items, payload, ← putLength_enclosed]
  | codeWithScope text scope =>
    rw [payloadOnto, fieldsOnto_eq scope, putLength_enclosed, payload]
    simp [putOnto, putLength, Nat.add_comm]
  | _ => simp [payloadOnto, putOnto]

theorem fieldsOnto_eq (fields : List (String × Bson)) (onto : Nat × Bytes) :
    fieldsOnto fields onto
      = ((fieldsOctets fields).length + onto.1, fieldsOctets fields ++ onto.2) := by
  match fields with
  | [] => simp [fieldsOnto, fieldsOctets]
  | (key, value) :: more =>
    rw [fieldsOnto, fieldsOnto_eq more, payloadOnto_eq value]
    simp [putOnto, fieldsOctets]
    omega

theorem itemsOnto_eq (index : Nat) (items : List Bson) (onto : Nat × Bytes) :
    itemsOnto index items onto
      = ((itemsOctets index items).length + onto.1, itemsOctets index items ++ onto.2) := by
  match items with
  | [] => simp [itemsOnto, itemsOctets]
  | item :: more =>
    rw [itemsOnto, itemsOnto_eq (index + 1) more, payloadOnto_eq item]
    simp [putOnto, itemsOctets]
    omega

end

end CallTrace.Bson

namespace CallTrace.Document

/-- The octets of a document, its length included. -/
def print (d : Document) : Bytes := (Bson.putLength (Bson.fieldsOnto d (1, [0]))).2

theorem print_eq (d : Document) : d.print = Bson.enclosed (Bson.fieldsOctets d) := by
  rw [print, Bson.fieldsOnto_eq, Bson.putLength_enclosed, List.append_nil]

/-- The octets of a document, if it can be written. -/
def print? (d : Document) : Option Bytes :=
  if Bson.fieldsPrintable d then some d.print else none

end CallTrace.Document
