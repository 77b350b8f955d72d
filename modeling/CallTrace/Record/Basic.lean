import CallTrace.Process
import CallTrace.SortedMap

/-!
What a receiver yields: calls with all that is known of them, processes, threads, and notes of the
monitor. A record sink takes records one by one and may refuse.
-/

namespace CallTrace

/-- A call with its values by name. -/
structure ApiCall where
  pid : Option Int64
  tid : Int64
  /-- Seconds since the start of the monitored process. -/
  time : Binary64
  api : String
  category : String
  status : Int64
  returnValue : Value
  arguments : NamedValues
  flags : SortedMap String String
  stacktrace : List Value
  uniqhash : Value
  lastError : Option Value
  ntStatus : Option Value

/-- One record of a trace. -/
inductive Record where
  | debug (tid : Int64) (time : Binary64) (text : String)
  | process (process : ProcessInfo)
  | thread (pid : Option Int64)
  | call (call : ApiCall)

/-- A consumer of records, with states in `τ`. -/
structure RecordSink (τ : Type) where
  /-- Take a record: whether it was taken, and the state afterwards. -/
  accept : τ → Record → Bool × τ

namespace RecordSink

/-- Takes records up to a capacity, or all of them without one. -/
def upTo (capacity : Option Nat) : RecordSink (Array Record) where
  accept taken record :=
    if capacity.any (· ≤ taken.size) then (false, taken) else (true, taken.push record)

end RecordSink

end CallTrace
