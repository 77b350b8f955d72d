import CallTrace.Bytes.Basic

/-!
Text as octets. `decode?` reads exactly what `encode` writes; `decodeLossy` reads anything, putting
U+FFFD for each longest piece that begins a character without completing it. Latin-1 gives every
octet the character of its own number.
-/

namespace CallTrace.Utf8

/-- The octets of a text. -/
def encode (s : String) : Bytes := s.toByteArray.data.toList

/-- The text that octets spell, if they are well-formed. -/
def decode? (bytes : Bytes) : Option String := String.fromUTF8? ⟨bytes.toArray⟩

theorem decode?_encode (s : String) : decode? (encode s) = some s := by
  have valid := s.isValidUTF8
  simp [decode?, encode, String.fromUTF8?, valid]
  rfl

theorem eq_encode_of_decode? {bytes : Bytes} {s : String} (h : decode? bytes = some s) :
    bytes = encode s := by
  unfold decode? String.fromUTF8? at h
  split at h
  · cases h; rfl
  · cases h

theorem decode?_eq_some_iff {bytes : Bytes} {s : String} :
    decode? bytes = some s ↔ bytes = encode s :=
  ⟨eq_encode_of_decode?, fun h => h ▸ decode?_encode s⟩

/-- How many octets follow a leading octet, and the range of the first of them. -/
def following? (lead : UInt8) : Option (Nat × UInt8 × UInt8) :=
  if 0xC2 ≤ lead ∧ lead ≤ 0xDF then some (1, 0x80, 0xBF)
  else if lead = 0xE0 then some (2, 0xA0, 0xBF)
  else if lead = 0xED then some (2, 0x80, 0x9F)
  else if 0xE1 ≤ lead ∧ lead ≤ 0xEF then some (2, 0x80, 0xBF)
  else if lead = 0xF0 then some (3, 0x90, 0xBF)
  else if 0xF1 ≤ lead ∧ lead ≤ 0xF3 then some (3, 0x80, 0xBF)
  else if lead = 0xF4 then some (3, 0x80, 0x8F)
  else none

/-- Up to `count` octets between `lo` and `hi`, the later ones between 80 and BF, and what follows
the longest such run. -/
def continuation : Nat → UInt8 → UInt8 → Bytes → Bytes × Bytes
  | 0, _, _, rest => ([], rest)
  | _ + 1, _, _, [] => ([], [])
  | count + 1, lo, hi, b :: rest =>
    if lo ≤ b ∧ b ≤ hi then
      let (run, after) := continuation count 0x80 0xBF rest
      (b :: run, after)
    else ([], b :: rest)

theorem length_continuation_le (count : Nat) (lo hi : UInt8) (bytes : Bytes) :
    (continuation count lo hi bytes).2.length ≤ bytes.length := by
  induction count generalizing lo hi bytes with
  | zero => simp [continuation]
  | succ count ih =>
    cases bytes with
    | nil => simp [continuation]
    | cons b rest =>
      have := ih 0x80 0xBF rest
      simp only [continuation]
      split
      · simp only [List.length_cons]
        omega
      · simp

/-- The character of a leading octet and a complete run of `count` octets. -/
def assemble (count : Nat) (lead : UInt8) (run : Bytes) : Char :=
  let top := lead.toNat % (0x40 >>> count)
  Char.ofNat (run.foldl (fun n b => n * 64 + b.toNat % 64) top)

/-- The characters of any octets, with U+FFFD for each longest piece that is no character. -/
def decodeLossy : Bytes → List Char
  | [] => []
  | b :: rest =>
    if b < 0x80 then Char.ofNat b.toNat :: decodeLossy rest
    else match following? b with
      | none => '\uFFFD' :: decodeLossy rest
      | some (count, lo, hi) =>
        let found := continuation count lo hi rest
        let c := if found.1.length = count then assemble count b found.1 else '\uFFFD'
        c :: decodeLossy found.2
termination_by bytes => bytes.length
decreasing_by
  · simp
  · simp
  · have := length_continuation_le count lo hi rest
    simp only [List.length_cons]
    omega

/-- The text in which each octet is the character of its own number. -/
def latin1 (bytes : Bytes) : String := String.ofList (bytes.map fun b => Char.ofNat b.toNat)

end CallTrace.Utf8
