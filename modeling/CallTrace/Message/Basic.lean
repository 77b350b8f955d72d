import CallTrace.Flags
import CallTrace.Value.Converter

/-!
The four kinds of message: a description of a call, a memory dump, a note of the monitor, and the
data of one call. Data name their call by its index alone, so they mean nothing without the
description of that index.
-/

namespace CallTrace

/-- An argument in a description: its name and the tag of its conversion. -/
structure ArgSpec where
  name : String
  tag : Option String
  deriving DecidableEq, Repr

/-- The conversion of an argument; an unknown tag asks for none of its own. -/
def ArgSpec.converter (spec : ArgSpec) : Converter :=
  (spec.tag.bind Converter.ofTag?).getD .default

/-- An argument without a tag. -/
def ArgSpec.bare (name : String) : ArgSpec := ⟨name, none⟩

/-- The description of a call under an index. -/
structure CallInfo where
  index : Int64
  name : String
  category : Option String
  args : List ArgSpec
  valueTables : ValueTables
  maskTables : MaskTables

/-- The data of one call, whose positional values start with its success and its result. -/
structure CallData where
  index : Int64
  tid : Int64
  time : Binary64
  args : List Bson
  stacktrace : List Value
  uniqhash : Value
  lastError : Option Value
  ntStatus : Option Value

/-- What the body of a frame says. -/
inductive Message where
  | info (info : CallInfo)
  | buffer (payload : Bytes) (checksum : String)
  | debug (tid : Int64) (time : Binary64) (text : String)
  | data (data : CallData)

end CallTrace
