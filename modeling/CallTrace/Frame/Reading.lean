import CallTrace.Bytes.LittleEndian
import CallTrace.Frame.Error
import CallTrace.Stream.Source

/-!
Reading frames. A frame is a length of four bytes, the least significant first, and a body; the
length counts its own bytes too. A stream may end only between frames.
-/

namespace CallTrace.Frame

/-- The greatest length of a frame, its own four bytes included. -/
def maxLength : Nat := 20 * 1024 * 1024

/-- The bytes of a length. -/
def lengthSize : Nat := 4

/-- Read the body that a length announces. -/
def readBody (s : Source) (length : Nat) : Except FrameError (Option Bytes) × Source :=
  if maxLength < length then (.error (.tooLarge length maxLength), s)
  else if length < lengthSize then (.error (.tooSmall length), s)
  else
    match s.fill (length - lengthSize) with
    | (.error text, s) => (.error (.io text), s)
    | (.ok body, s) =>
      if body.length < length - lengthSize then
        (.error (.truncated (length - lengthSize) body.length), s)
      else (.ok (some body), s)

/-- Read one frame's body; nothing, if the stream ends where a frame could begin. -/
def read (s : Source) : Except FrameError (Option Bytes) × Source :=
  match s.fill lengthSize with
  | (.error text, s) => (.error (.io text), s)
  | (.ok front, s) =>
    if front.length = 0 then (.ok none, s)
    else if front.length < lengthSize then
      (.error (.truncated lengthSize front.length), s)
    else readBody s (LittleEndian.value front)

theorem readBody_ok_append {s t : Source} {length : Nat} {body : Bytes}
    (h : readBody s length = (.ok (some body), t)) : body ++ t.pending = s.pending := by
  unfold readBody at h
  split at h
  · cases h
  · split at h
    · cases h
    · split at h
      · cases h
      · next filled =>
        split at h
        · cases h
        · cases h; exact Source.fill_ok_append filled

/-- A frame that was read was the front of the stream, behind its four bytes of length. -/
theorem read_ok_append {s t : Source} {body : Bytes} (h : read s = (.ok (some body), t)) :
    ∃ front : Bytes, front.length = lengthSize ∧ front ++ body ++ t.pending = s.pending := by
  unfold read at h
  split at h
  · cases h
  · next front mid filled =>
    split at h
    · cases h
    · split at h
      · cases h
      · next enough =>
        refine ⟨front, ?_, ?_⟩
        · have := Source.fill_length_le filled
          omega
        · rw [List.append_assoc, readBody_ok_append h, Source.fill_ok_append filled]

/-- Each frame takes bytes from the stream. -/
theorem length_pending_lt {s t : Source} {body : Bytes} (h : read s = (.ok (some body), t)) :
    t.pending.length < s.pending.length := by
  obtain ⟨front, size, append⟩ := read_ok_append h
  have := congrArg List.length append
  simp only [List.length_append] at this
  simp only [lengthSize] at size
  omega

/-- Read frames until the stream ends or an error occurs: the bodies, the error if there was one,
and the source afterwards. -/
def readAllFrom (s : Source) (bodies : Array Bytes) : List Bytes × Option FrameError × Source :=
  match _outcome : read s with
  | (.error e, t) => (bodies.toList, some e, t)
  | (.ok none, t) => (bodies.toList, none, t)
  | (.ok (some body), t) => readAllFrom t (bodies.push body)
termination_by s.pending.length
decreasing_by exact length_pending_lt _outcome

/-- All frames of a stream, up to its end or its first error. -/
def readAll (s : Source) : List Bytes × Option FrameError × Source := readAllFrom s #[]

end CallTrace.Frame
