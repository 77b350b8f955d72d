import CallTrace.Json.Basic
import CallTrace.Record.Basic
import CallTrace.Stream.Sink

/-!
Records as lines of JSON, each ended by a line feed. The members of a record have a fixed order with
its kind in front; the two error members are left out where there is nothing to tell.
-/

namespace CallTrace

mutual

/-- A value in JSON. -/
def Value.toJson : Value → Json
  | .null => .null
  | .bool b => .bool b
  | .int n => .int n.toInt
  | .float x => .float x
  | .text s => .text s
  | .list items => .array (Value.toJsons items)

/-- Several values in JSON. -/
def Value.toJsons : List Value → List Json
  | [] => []
  | item :: rest => item.toJson :: Value.toJsons rest

end

/-- A number that may be absent. -/
def Json.ofInt64? : Option Int64 → Json
  | none => .null
  | some n => .int n.toInt

/-- A member that is left out if it has no value. -/
def Json.optionalMember (key : String) (value : Option Value) : List (String × Json) :=
  (value.map fun v => (key, v.toJson)).toList

/-- The members of a call. -/
def ApiCall.members (call : ApiCall) : List (String × Json) :=
  [("type", .text "apicall"), ("pid", .ofInt64? call.pid), ("tid", .int call.tid.toInt),
    ("time", .float call.time), ("api", .text call.api), ("category", .text call.category),
    ("status", .int call.status.toInt), ("return_value", call.returnValue.toJson),
    ("arguments", .object (call.arguments.map fun arg => (arg.1, arg.2.toJson))),
    ("flags", .object (call.flags.toList.map fun flag => (flag.1, .text flag.2))),
    ("stacktrace", .array (Value.toJsons call.stacktrace)),
    ("uniqhash", call.uniqhash.toJson)]
  ++ Json.optionalMember "last_error" call.lastError
  ++ Json.optionalMember "nt_status" call.ntStatus

namespace Record

/-- A record in JSON. -/
def toJson : Record → Json
  | .debug tid time text =>
    .object [("type", .text "debug"), ("tid", .int tid.toInt), ("time", .float time),
      ("message", .text text)]
  | .process p =>
    .object [("type", .text "process"), ("pid", .int p.pid.toInt), ("ppid", .int p.ppid.toInt),
      ("first_seen", .text p.firstSeen.zuluText), ("process_name", .text p.name)]
  | .thread pid => .object [("type", .text "thread"), ("pid", .ofInt64? pid)]
  | .call c => .object c.members

/-- The characters of a record's line, the line feed included. -/
def lineChars (record : Record) : List Char := record.toJson.charsOnto ['\n']

theorem lineChars_eq (record : Record) : record.lineChars = record.toJson.chars ++ ['\n'] :=
  Json.charsOnto_eq ..

/-- A record's line, the line feed included. -/
def line (record : Record) : String := String.ofList record.lineChars

end Record

/-- Writes each record as a line to a transport. -/
def RecordSink.lines : RecordSink Sink where
  accept w record :=
    let (ending, w) := w.writeAll (Utf8.encode record.line)
    (ending == .complete, w)

end CallTrace
