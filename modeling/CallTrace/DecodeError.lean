import CallTrace.Frame.Error

/-!
Why a frame does not become a record. Some causes concern one frame only, and it is dropped; the
others end the stream.
-/

namespace CallTrace

/-- Why a frame was not turned into a record. -/
inductive DecodeError where
  /-- The frame itself could not be read. -/
  | frame (cause : FrameError)
  /-- The body of the frame is no document. -/
  | malformed
  /-- A process announcement has none of the known layouts. -/
  | unknownLayout (fields : List String)
  /-- A field of a process announcement is absent or has the wrong type. -/
  | badField (name : String)
  /-- Data for an index that was never described. -/
  | unknownIndex (index : Int64)
  /-- Another number of values than the description has names. -/
  | argumentCount (api : String) (expected actual : Nat)
  /-- A memory dump with another digest than it claims. -/
  | checksum (expected computed : String)
  deriving DecidableEq, Repr

namespace DecodeError

/-- The wording of an error; for a malformed body there is none. -/
def message? : DecodeError → Option String
  | .frame cause => some cause.message
  | .malformed => none
  | .unknownLayout fields =>
    some ("unrecognized process record layout (fields: " ++ ",".intercalate fields ++ ")")
  | .badField name => some ("process record field '" ++ name ++ "' has the wrong type")
  | .unknownIndex index =>
    some ("data frame references undescribed index " ++ toString index.toInt)
  | .argumentCount api expected actual =>
    some ("argument count mismatch on " ++ api ++ ": got " ++ toString actual ++ " values for "
      ++ toString expected ++ " names")
  | .checksum expected computed =>
    some ("buffer checksum mismatch: expected " ++ expected ++ ", computed " ++ computed)

/-- Whether an error ends the stream instead of dropping one frame. -/
def isFatal : DecodeError → Bool
  | .unknownIndex _ => false
  | .argumentCount .. => false
  | .checksum .. => false
  | _ => true

end DecodeError

end CallTrace
