import CallTrace.Bytes.LittleEndian
import CallTrace.Frame.Reading
import CallTrace.Stream.Sink

/-!
Writing frames. `send` succeeds only if every byte was accepted and the transport was then flushed;
a length beyond 32 bits is refused before anything is written.
-/

namespace CallTrace.Frame

/-- Write all bytes and flush. -/
def send (w : Sink) (bytes : Bytes) : Except FrameError Unit × Sink :=
  match w.writeAll bytes with
  | (.refused, w) => (.error .connectionBroken, w)
  | (.fault text, w) => (.error (.io text), w)
  | (.complete, w) =>
    match w.flush with
    | (.ok (), w) => (.ok (), w)
    | (.error failure, w) => (.error (.io failure.text), w)

/-- A frame with the given body. -/
def encode (body : Bytes) : Bytes :=
  LittleEndian.digits lengthSize (body.length + lengthSize) ++ body

/-- Write a frame with the given body. -/
def write (w : Sink) (body : Bytes) : Except FrameError Unit × Sink :=
  if LittleEndian.capacity lengthSize ≤ body.length + lengthSize then
    (.error (.tooLarge (body.length + lengthSize) maxLength), w)
  else send w (encode body)

end CallTrace.Frame
