/-!
What can go wrong with a frame: on the way in, a stream that ends within it or a length that no
frame has; on the way out, a peer that takes nothing more; on either, a fault of the transport.
-/

namespace CallTrace

/-- Why a frame or a handshake was not read or written. -/
inductive FrameError where
  /-- The stream ended after `actual` of `expected` bytes. -/
  | truncated (expected actual : Nat)
  /-- More bytes than the most that there may be. -/
  | tooLarge (length most : Nat)
  /-- A length that does not even cover its own four bytes. -/
  | tooSmall (length : Nat)
  /-- The peer accepted no bytes although some were left. -/
  | connectionBroken
  /-- The transport failed. -/
  | io (text : String)
  deriving DecidableEq, Repr

/-- The wording of an error. -/
def FrameError.message : FrameError → String
  | .truncated expected actual =>
    "truncated frame: expected " ++ toString expected ++ " bytes, got " ++ toString actual
  | .tooLarge length most =>
    "frame length " ++ toString length ++ " exceeds maximum " ++ toString most
  | .tooSmall length =>
    "frame length " ++ toString length ++ " is smaller than the 4 byte prefix"
  | .connectionBroken => "connection broken"
  | .io text => "IO error: " ++ text

end CallTrace
