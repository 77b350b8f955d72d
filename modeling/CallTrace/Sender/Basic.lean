import CallTrace.Buffer
import CallTrace.Calendar.Moment
import CallTrace.Category
import CallTrace.Frame.Handshake
import CallTrace.Frame.Writing
import CallTrace.Message.Codec
import CallTrace.Process

/-!
The sending side of a trace. An index below the capacity of the table of described indices gets its
description in front of its first data; the index is marked before its description is written.
Processes are announced under an index of their own.
-/

namespace CallTrace

/-- Why an operation of a sender failed. -/
inductive SendError where
  /-- A frame could not be written. -/
  | frame (cause : FrameError)
  /-- The document of a message cannot be written. -/
  | unprintable
  deriving DecidableEq, Repr

/-- What a sender's clocks show. -/
structure Clock where
  /-- Seconds since the sender started. -/
  elapsed : Binary64
  /-- Milliseconds since the start of 1970. -/
  epochMillis : EpochMillis
  deriving DecidableEq, Repr

/-- A sender in the middle of a trace. -/
structure Sender where
  sink : Sink
  table : CallTable
  clock : Clock
  pid : Int64
  /-- The indices marked as described, the last one first. -/
  described : List UInt32

/-- The form in which an argument travels. -/
inductive ArgFormat where
  | long
  | unicode
  deriving DecidableEq, Repr

namespace ArgFormat

/-- Integers travel as integers, everything else as text. -/
def ofValue : Value → ArgFormat
  | .int _ => .long
  | .bool _ => .long
  | _ => .unicode

/-- The forms in which arguments travel. -/
def ofArgs (args : NamedValues) : List ArgFormat := args.map fun arg => ofValue arg.2

/-- A value in the form in which it travels. -/
def coerce (format : ArgFormat) (value : Value) : Bson :=
  match format, value.asInt? with
  | .long, some n => .int64 n
  | _, _ => .string value.display

end ArgFormat

namespace Sender

/-- How many indices the table of described indices holds. -/
def capacity : Nat := 512

/-- The index of process announcements. -/
def processIndex : UInt32 := 511

/-- A sender on a transport, without a handshake. -/
def start (sink : Sink) (table : CallTable) (clock : Clock) : Sender :=
  ⟨sink, table, clock, -1, []⟩

/-- Write the handshake line. -/
def handshake (sink : Sink) : Except FrameError Unit × Sink := Frame.send sink Handshake.line

/-- Write a message as a frame. -/
def write (s : Sender) (message : Message) : Except SendError Unit × Sender :=
  match message.encode? with
  | none => (.error .unprintable, s)
  | some body =>
    match Frame.write s.sink body with
    | (.ok (), sink) => (.ok (), { s with sink })
    | (.error e, sink) => (.error (.frame e), { s with sink })

/-- The names in front of the arguments of every call. -/
def leadingNames : List String := ["is_success", "retval"]

/-- The description of a call by its first use. -/
def infoOf (s : Sender) (index : UInt32) (name : String) (args : NamedValues) : CallInfo where
  index := index.toUInt64.toInt64
  name := name
  category := some (Category.resolve s.table name args).name
  args := (leadingNames ++ args.map (·.1)).map .bare
  valueTables := .empty
  maskTables := .empty

/-- The data of a call. -/
def dataOf (s : Sender) (index : UInt32) (success : Bool) (result : Value) (args : NamedValues) :
    CallData where
  index := index.toUInt64.toInt64
  tid := s.pid
  time := s.clock.elapsed
  args :=
    .int64 (if success then 1 else 0) :: result.toBson ::
      List.zipWith (fun arg format => ArgFormat.coerce format arg.2) args (ArgFormat.ofArgs args)
  stacktrace := []
  uniqhash := .null
  lastError := none
  ntStatus := none

/-- Describe an index in front of its first data. Indices beyond the capacity are never
described. -/
def describe (s : Sender) (index : UInt32) (name : String) (args : NamedValues) :
    Except SendError Unit × Sender :=
  if index.toNat < capacity ∧ ¬ s.described.contains index then
    let info := s.infoOf index name args
    { s with described := index :: s.described }.write (.info info)
  else (.ok (), s)

/-- Send one call: its description if its index is new, then its data. -/
def emit (s : Sender) (index : UInt32) (name : String) (success : Bool) (result : Value)
    (args : NamedValues) : Except SendError Unit × Sender :=
  match s.describe index name args with
  | (.error e, s) => (.error e, s)
  | (.ok (), s) => s.write (.data (s.dataOf index success result args))

/-- Set the process that later calls belong to. -/
def setPid (s : Sender) (pid : Int64) : Sender := { s with pid }

/-- The values of a process announcement. -/
def processArgs (clock : Clock) (pid ppid : Int64) (path : Option String) : NamedValues :=
  [("TimeStamp", .int clock.epochMillis.count), ("ProcessIdentifier", .int pid),
    ("ParentProcessIdentifier", .int ppid), ("ModulePath", .text (path.getD ""))]

/-- Announce a process, to which later calls belong. -/
def announceProcess (s : Sender) (pid ppid : Int64) (path : Option String) :
    Except SendError Unit × Sender :=
  let s := s.setPid pid
  s.emit processIndex ProcessInfo.processMarker true (.int 0) (processArgs s.clock pid ppid path)

/-- Send a note. -/
def emitDebug (s : Sender) (text : String) : Except SendError Unit × Sender :=
  s.write (.debug s.pid s.clock.elapsed text)

/-- Send a memory dump under its digest. -/
def emitBuffer (s : Sender) (payload : Bytes) : Except SendError Unit × Sender :=
  s.write (.buffer payload (checksum payload))

/-- The number of a call, if the table knows it. -/
def resolveIndex (s : Sender) (name : String) : Option UInt32 := s.table.indexOf name

end Sender

end CallTrace
