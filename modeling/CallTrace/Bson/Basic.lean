import CallTrace.Bson.Decimal128
import CallTrace.Bytes.Basic
import CallTrace.Decimal.Binary64

/-!
Values and documents of the format BSON. A document is a list of fields in order; `insert` keeps
each key once, at the place where it was first put.
-/

namespace CallTrace

/-- An identifier of twelve octets. -/
structure ObjectId where
  bytes : Bytes
  length_bytes : bytes.length = 12
  deriving DecidableEq, Repr

/-- The identifier made of some octets, if they are twelve. -/
def ObjectId.ofBytes? (bytes : Bytes) : Option ObjectId :=
  if h : bytes.length = 12 then some ⟨bytes, h⟩ else none

/-- A value of the format. -/
inductive Bson where
  | double (x : Binary64)
  | string (s : String)
  | document (fields : List (String × Bson))
  | array (items : List Bson)
  | binary (subtype : UInt8) (bytes : Bytes)
  | undefined
  | objectId (id : ObjectId)
  | boolean (b : Bool)
  | dateTime (millis : Int64)
  | null
  | regex (pattern options : String)
  | dbPointer (space : String) (id : ObjectId)
  | code (text : String)
  | symbol (text : String)
  | codeWithScope (text : String) (scope : List (String × Bson))
  | int32 (n : Int32)
  | timestamp (time increment : UInt32)
  | int64 (n : Int64)
  | decimal128 (d : Decimal128)
  | minKey
  | maxKey
  deriving Inhabited, Repr

/-- Fields in order. -/
abbrev Document := List (String × Bson)

namespace Document

/-- Give a key a value: in its place if it has one, else at the end. -/
def insert : Document → String → Bson → Document
  | [], key, value => [(key, value)]
  | (key', value') :: rest, key, value =>
    if key' = key then (key, value) :: rest else (key', value') :: insert rest key value

/-- The document of some fields, of which the last for a key counts, at the place of the first. -/
def ofFields (fields : List (String × Bson)) : Document :=
  fields.foldl (fun d field => insert d field.1 field.2) []

/-- The value at a key. -/
def get? (d : Document) (key : String) : Option Bson := List.lookup key d

/-- The text at a key, if it is one. -/
def getString? (d : Document) (key : String) : Option String :=
  match d.get? key with
  | some (.string s) => some s
  | _ => none

/-- The items at a key, if they are an array. -/
def getArray? (d : Document) (key : String) : Option (List Bson) :=
  match d.get? key with
  | some (.array items) => some items
  | _ => none

/-- The fields at a key, if they are a document. -/
def getDocument? (d : Document) (key : String) : Option Document :=
  match d.get? key with
  | some (.document fields) => some fields
  | _ => none

end Document

end CallTrace
