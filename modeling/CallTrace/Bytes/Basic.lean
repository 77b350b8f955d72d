/-!
Octets as they travel on a wire or lie in a file. Everything that is stated about a stream is
stated on these lists.
-/

namespace CallTrace

/-- Octets in the order in which they travel. -/
abbrev Bytes := List UInt8

end CallTrace
