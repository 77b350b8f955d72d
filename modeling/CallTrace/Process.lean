import CallTrace.Calendar.Moment
import CallTrace.DecodeError
import CallTrace.Value.Basic

/-!
Process announcements. Monitors of several generations send them with different fields; the names
of the fields tell which, and all are brought into one form.
-/

namespace CallTrace

/-- The fields with which a process is announced. -/
inductive ProcessLayout where
  /-- `TimeLow` and `TimeHigh`, halves of a count of 100 ns since 1601. -/
  | filetimePascal
  /-- `time_low` and `time_high`, the same halves. -/
  | filetimeSnake
  /-- `TimeStamp`, milliseconds since 1970. -/
  | epochMillis
  deriving DecidableEq, Repr

/-- A process that was announced. -/
structure ProcessInfo where
  pid : Int64
  ppid : Int64
  firstSeen : Moment
  name : String
  deriving DecidableEq, Repr

namespace ProcessInfo

/-- The call name under which a process is announced. -/
def processMarker : String := "__process__"

/-- The call name under which a thread is announced. -/
def threadMarker : String := "__thread__"

/-- Whether a field is there. -/
def hasField (args : NamedValues) (name : String) : Bool := (List.lookup name args).isSome

/-- The layout that the names of the fields tell. -/
def layout? (args : NamedValues) : Option ProcessLayout :=
  if hasField args "TimeLow" then some .filetimePascal
  else if hasField args "time_low" then some .filetimeSnake
  else if hasField args "TimeStamp" then some .epochMillis
  else none

/-- The integer in a field. -/
def intField (args : NamedValues) (name : String) : Except DecodeError Int64 :=
  match (List.lookup name args).bind Value.asInt? with
  | some n => .ok n
  | none => .error (.badField name)

/-- The text in a field; one without a value counts as empty. -/
def textField (args : NamedValues) (name : String) : Except DecodeError String :=
  match List.lookup name args with
  | some (.text s) => .ok s
  | some .null => .ok ""
  | _ => .error (.badField name)

/-- The part of a path behind its last separator of either kind. -/
def fileName (path : String) : String :=
  String.ofList
    (path.toList.reverse.takeWhile fun c => c != '\\' && c != '/').reverse

/-- Units of 100 ns between the starts of 1601 and of 1970. -/
def filetimeOffset : Int := 116444736000000000

/-- The count of 100 ns since 1601 of two halves, of which the lowest 32 bits count. -/
def filetimeTicks (low high : Int64) : UInt64 :=
  high.toInt32.toUInt32.toUInt64 <<< 32 ||| low.toInt32.toUInt32.toUInt64

/-- What 128 bits, one of them for the sign, keep of an integer. -/
def wide (n : Int) : Int := n.bmod 0x100000000000000000000000000000000

/-- The count of 100 ns since 1970 of two halves. -/
def unixTicks (low high : Int64) : Int := wide ((filetimeTicks low high).toNat - filetimeOffset)

/-- The whole seconds since 1970 of two halves, rounded down. -/
def filetimeSeconds (low high : Int64) : Int64 := .ofInt (unixTicks low high / 10000000)

/-- The nanoseconds of two halves after the whole second. -/
def filetimeNanos (low high : Int64) : UInt32 := .ofInt (wide (unixTicks low high % 10000000 * 100))

/-- A moment that a field gives, if the calendar can hold it. -/
def momentField (name : String) : Option Moment → Except DecodeError Moment
  | some t => .ok t
  | none => .error (.badField name)

/-- The moment of the two halves of a count of 100 ns since 1601. -/
def filetime (low high : Int64) : Except DecodeError Moment :=
  momentField "TimeLow"
    (Moment.ofUnix? (filetimeSeconds low high).toInt (filetimeNanos low high).toNat)

/-- The moment of a number of milliseconds since 1970. -/
def epochMoment (millis : Int64) : Except DecodeError Moment :=
  momentField "TimeStamp" (Moment.ofMillis? millis.toInt)

/-- The announcement in fields of a layout. -/
def ofLayout (args : NamedValues) : ProcessLayout → Except DecodeError ProcessInfo
  | .filetimePascal => do
    let low ← intField args "TimeLow"
    let high ← intField args "TimeHigh"
    let firstSeen ← filetime low high
    let pid ← intField args "ProcessIdentifier"
    let ppid ← intField args "ParentProcessIdentifier"
    let path ← textField args "ModulePath"
    pure ⟨pid, ppid, firstSeen, fileName path⟩
  | .filetimeSnake => do
    let short := hasField args "pid"
    let pid ← intField args (if short then "pid" else "process_identifier")
    let ppid ← intField args (if short then "ppid" else "parent_process_identifier")
    let low ← intField args "time_low"
    let high ← intField args "time_high"
    let firstSeen ← filetime low high
    let path ← textField args "module_path"
    pure ⟨pid, ppid, firstSeen, fileName path⟩
  | .epochMillis => do
    let millis ← intField args "TimeStamp"
    let firstSeen ← epochMoment millis
    let pid ← intField args "ProcessIdentifier"
    let ppid ← intField args "ParentProcessIdentifier"
    let path ← textField args "ModulePath"
    pure ⟨pid, ppid, firstSeen, fileName path⟩

/-- The announcement in some fields. -/
def normalize (args : NamedValues) : Except DecodeError ProcessInfo :=
  match layout? args with
  | some layout => ofLayout args layout
  | none => .error (.unknownLayout (args.map (·.1)))

end ProcessInfo

end CallTrace
