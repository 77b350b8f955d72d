import CallTrace.Message.Basic

/-!
Messages as documents. Reading never fails: a field that is absent or of the wrong type gets its
default, and a document whose kind is not known holds the data of a call.
-/

namespace CallTrace

/-- The integer of a field; a fraction is dropped. -/
def Bson.asInt? : Bson → Option Int64
  | .int32 n => some n.toInt64
  | .int64 n => some n
  | .double x => some x.toInt64
  | _ => none

/-- The floating-point number of a field. -/
def Bson.asFloat? : Bson → Option Binary64
  | .double x => some x
  | .int32 n => some (Binary64.ofInt n.toInt)
  | .int64 n => some (Binary64.ofInt n.toInt)
  | _ => none

/-- The constant of a flag table; 32-bit ones are taken as unsigned. -/
def Bson.flagConstant? : Bson → Option UInt64
  | .int32 n => some n.toUInt32.toUInt64
  | .int64 n => some n.toUInt64
  | _ => none

/-- The name in an argument's entry: a text, or the text of whatever stands in its place. -/
def ArgSpec.nameOfBson : Bson → String
  | .string s => s
  | other => other.text

/-- An argument from its entry: a name, or an array of a name and perhaps a tag. -/
def ArgSpec.ofBson : Bson → ArgSpec
  | .array (name :: .string tag :: _) => ⟨nameOfBson name, some tag⟩
  | .array (name :: _) => .bare (nameOfBson name)
  | .array [] => .bare ""
  | other => .bare (nameOfBson other)

/-- The entry of an argument. -/
def ArgSpec.toBson (spec : ArgSpec) : Bson :=
  match spec.tag with
  | none => .string spec.name
  | some tag => .array [.string spec.name, .string tag]

namespace Flags

/-- A constant and its symbol from an entry of a table, if it is well-formed. -/
def entryOfBson? : Bson → Option (UInt64 × String)
  | .array [constant, .string symbol] => constant.flagConstant?.map fun bits => (bits, symbol)
  | _ => none

/-- The well-formed entries of a table, in order. -/
def entriesOfBson : Bson → List (UInt64 × String)
  | .array entries => entries.filterMap entryOfBson?
  | _ => []

/-- The entry of a constant and its symbol. -/
def entryToBson (entry : UInt64 × String) : Bson :=
  .array [.int64 entry.1.toInt64, .string entry.2]

/-- The value tables in a document's field. -/
def valueTablesOf (field : Option Document) : ValueTables :=
  SortedMap.ofList ((field.getD []).map fun table =>
    (table.1, SortedMap.ofList (entriesOfBson table.2)))

/-- The mask tables in a document's field. -/
def maskTablesOf (field : Option Document) : MaskTables :=
  SortedMap.ofList ((field.getD []).map fun table => (table.1, entriesOfBson table.2))

/-- Value tables as a document. -/
def valueTablesDocument (tables : ValueTables) : Document :=
  tables.toList.map fun table => (table.1, .array (table.2.toList.map entryToBson))

/-- Mask tables as a document. -/
def maskTablesDocument (tables : MaskTables) : Document :=
  tables.toList.map fun table => (table.1, .array (table.2.map entryToBson))

end Flags

/-- A field that is left out if it has no value. -/
def optionalField (key : String) (value : Option Bson) : Document :=
  (value.map fun v => (key, v)).toList

namespace CallInfo

/-- The description in a document. -/
def ofDocument (d : Document) : CallInfo where
  index := ((d.get? "I").bind Bson.asInt?).getD (-1)
  name := (d.getString? "name").getD "NONAME"
  category := d.getString? "category"
  args := ((d.getArray? "args").getD []).map ArgSpec.ofBson
  valueTables := Flags.valueTablesOf (d.getDocument? "flags_value")
  maskTables := Flags.maskTablesOf (d.getDocument? "flags_bitmask")

/-- A description as a document. -/
def toDocument (info : CallInfo) : Document :=
  [("I", .int64 info.index), ("name", .string info.name), ("type", .string "info"),
    ("args", .array (info.args.map ArgSpec.toBson))]
  ++ optionalField "category" (info.category.map .string)
  ++ (if info.valueTables.isEmpty then []
      else [("flags_value", .document (Flags.valueTablesDocument info.valueTables))])
  ++ (if info.maskTables.isEmpty then []
      else [("flags_bitmask", .document (Flags.maskTablesDocument info.maskTables))])

end CallInfo

namespace CallData

/-- The data in a document. The two error fields count only if both are there. -/
def ofDocument (d : Document) : CallData :=
  let errors := match d.get? "e", d.get? "E" with
    | some e, some status => some (Value.ofBson e, Value.ofBson status)
    | _, _ => none
  { index := ((d.get? "I").bind Bson.asInt?).getD (-1)
    tid := ((d.get? "T").bind Bson.asInt?).getD 0
    time := ((d.get? "t").bind Bson.asFloat?).getD .zero
    args := (d.getArray? "args").getD []
    stacktrace := Value.ofBsons ((d.getArray? "s").getD [])
    uniqhash := ((d.get? "h").map Value.ofBson).getD (.int 0)
    lastError := errors.map (·.1)
    ntStatus := errors.map (·.2) }

/-- Whether a value is written at all. -/
def presentHash? : Value → Option Bson
  | .null => none
  | hash => some hash.toBson

/-- Data as a document. -/
def toDocument (data : CallData) : Document :=
  [("I", .int64 data.index), ("T", .int64 data.tid), ("t", .double data.time),
    ("args", .array data.args)]
  ++ (if data.stacktrace.isEmpty then []
      else [("s", .array (Value.toBsons data.stacktrace))])
  ++ optionalField "h" (presentHash? data.uniqhash)
  ++ (match data.lastError, data.ntStatus with
      | some e, some status => [("e", e.toBson), ("E", status.toBson)]
      | _, _ => [])

end CallData

namespace Message

/-- The payload in a dump's field: the octets of a binary or of a text. -/
def payloadOf : Option Bson → Bytes
  | some (.binary _ bytes) => bytes
  | some (.string s) => Utf8.encode s
  | _ => []

/-- The message in a document. -/
def ofDocument (d : Document) : Message :=
  match (d.getString? "type").getD "none" with
  | "info" => .info (CallInfo.ofDocument d)
  | "buffer" => .buffer (payloadOf (d.get? "buffer")) ((d.getString? "checksum").getD "")
  | "debug" =>
    .debug (((d.get? "T").bind Bson.asInt?).getD 0) (((d.get? "t").bind Bson.asFloat?).getD .zero)
      ((d.getString? "msg").getD "")
  | _ => .data (CallData.ofDocument d)

/-- A message as a document. -/
def toDocument : Message → Document
  | .info call => call.toDocument
  | .buffer payload checksum =>
    [("type", .string "buffer"), ("buffer", .binary 0 payload), ("checksum", .string checksum)]
  | .debug tid time text =>
    [("type", .string "debug"), ("T", .int64 tid), ("t", .double time), ("msg", .string text)]
  | .data call => call.toDocument

end Message

end CallTrace
