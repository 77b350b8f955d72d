import CallTrace.Bytes.Hex
import CallTrace.Bytes.Sha1
import CallTrace.DecodeError

/-!
Memory dumps and where they are kept. A dump is accepted only under the digest of its own octets,
so a store never sees a name that a peer chose.
-/

namespace CallTrace

/-- The name of a dump: its SHA-1 digest in lower-case hexadecimal digits. -/
def checksum (payload : Bytes) : String := Hex.encode (Sha1.digest payload)

/-- The digest of a dump, if it is the one that was claimed. -/
def verify (payload : Bytes) (expected : String) : Except DecodeError String :=
  let computed := checksum payload
  if computed = expected then .ok computed else .error (.checksum expected computed)

/-- A place where dumps are kept, with states in `σ`. Keeping one may fail. -/
structure BufferStore (σ : Type) where
  /-- Keep a dump under its digest: whether it was kept, and the state afterwards. -/
  keep : σ → String → Bytes → Bool × σ

namespace BufferStore

/-- Keeps nothing, and never fails. -/
def discard : BufferStore Unit := ⟨fun _ _ _ => (true, ())⟩

/-- Keeps nothing, and always fails. -/
def refuse : BufferStore Unit := ⟨fun _ _ _ => (false, ())⟩

/-- Keeps all dumps in the order of their arrival. -/
def inOrder : BufferStore (Array (String × Bytes)) :=
  ⟨fun kept digest payload => (true, kept.push (digest, payload))⟩

end BufferStore

end CallTrace
