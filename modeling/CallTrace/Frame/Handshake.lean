import CallTrace.Frame.Error
import CallTrace.Stream.Source
import CallTrace.Text.Blank
import CallTrace.Text.Utf8

/-!
The unframed line in front of the frames that announces what they hold. Its reader takes the line
and its line feed and not one byte more.
-/

namespace CallTrace

/-- What a handshake line announces. -/
inductive Protocol where
  | bson
  | other (name : String)
  deriving DecidableEq, Repr

namespace Handshake

/-- The line that announces documents, with its line feed. -/
def line : Bytes := [0x42, 0x53, 0x4F, 0x4E, 0x0A]

/-- The line feed. -/
def lineFeed : UInt8 := 0x0A

/-- The most bytes of a line in front of its line feed. -/
def maxLength : Nat := 16

/-- What a line without its line feed announces. -/
def protocolOf (bytes : Bytes) : Protocol :=
  let name := trim (Utf8.decodeLossy bytes)
  if name = ['B', 'S', 'O', 'N'] then .bson else .other (String.ofList name)

/-- Read the rest of a line of which `count` bytes, last first, have been read; at most `room` more
may come before its line feed. -/
def readFrom (s : Source) (reversed : Bytes) (count room : Nat) :
    Except FrameError Protocol × Source :=
  match s.fill 1 with
  | (.error text, s) => (.error (.io text), s)
  | (.ok [], s) => (.error (.truncated (count + 1) count), s)
  | (.ok (b :: _), s) =>
    if b = lineFeed then (.ok (protocolOf reversed.reverse), s)
    else if room = 0 then (.error (.tooLarge (count + 1) maxLength), s)
    else readFrom s (b :: reversed) (count + 1) (room - 1)
termination_by room

/-- Read a handshake line and its line feed. -/
def read (s : Source) : Except FrameError Protocol × Source := readFrom s [] 0 maxLength

end Handshake

end CallTrace
