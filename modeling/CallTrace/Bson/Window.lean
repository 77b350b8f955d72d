import CallTrace.Bytes.LittleEndian
import CallTrace.Text.Utf8

/-!
The place of a reader within the octets of a document. Documents lie within documents, so a window
knows how many of the octets that follow still belong to the one at hand. No octets are copied on
entering a document, however deep it lies.

Each part is found in front of anything that follows it, which the laws named `…_append` say, as
long as the document at hand has room for it.
-/

namespace CallTrace.Bson

/-- The octets that follow, of which the first `left` belong to the document at hand. -/
structure Window where
  bytes : Bytes
  left : Nat
  deriving DecidableEq, Repr

namespace Window

/-- Exactly `n` octets, and what follows them. -/
def take? (w : Window) (n : Nat) : Option (Bytes × Window) :=
  if w.left < n then none
  else
    let front := w.bytes.take n
    if front.length = n then some (front, ⟨w.bytes.drop n, w.left - n⟩) else none

/-- One octet, and what follows it. -/
def next? (w : Window) : Option (UInt8 × Window) :=
  match w.left, w.bytes with
  | left + 1, b :: rest => some (b, ⟨rest, left⟩)
  | _, _ => none

/-- A number of `width` octets, the least significant first, and what follows it. -/
def number? (w : Window) (width : Nat) : Option (Nat × Window) :=
  (w.take? width).map fun (front, w) => (LittleEndian.value front, w)

/-- A word of 32 bits, and what follows it. -/
def word32? (w : Window) : Option (UInt32 × Window) :=
  (w.number? 4).map fun (n, w) => (UInt32.ofNat n, w)

/-- A word of 64 bits, and what follows it. -/
def word64? (w : Window) : Option (UInt64 × Window) :=
  (w.number? 8).map fun (n, w) => (UInt64.ofNat n, w)

/-- A text of `n` octets and a zero, and what follows the zero. -/
def text? (w : Window) (n : Nat) : Option (String × Window) := do
  let (front, w) ← w.take? n
  match w.next? with
  | some (0, w) => (Utf8.decode? front).map fun s => (s, w)
  | _ => none

/-- A text up to the first zero, and what follows the zero. -/
def zeroEnded? (w : Window) : Option (String × Window) :=
  w.text? (w.bytes.takeWhile (· ≠ 0)).length

/-- The type octet and the key of a field, and what follows them. -/
def field? (w : Window) : Option (UInt8 × String × Window) := do
  let (type, w) ← w.next?
  let (key, w) ← w.zeroEnded?
  some (type, key, w)

/-- A text behind a length that counts the zero at its end, and what follows it. -/
def counted? (w : Window) : Option (String × Window) := do
  let (length, w) ← w.number? 4
  if length = 0 then none else w.text? (length - 1)

/-- The window over the contents behind a length that counts itself, and how many octets are left
behind them. -/
def enter? (w : Window) : Option (Window × Nat) := do
  let (length, w) ← w.number? 4
  if length < 5 ∨ w.left < length - 4 then none
  else some (⟨w.bytes, length - 4⟩, w.left - (length - 4))

/-- What follows the last octet of the document at hand, which must be a zero. -/
def close? (w : Window) : Option Bytes :=
  match w.left with
  | 0 => none
  | before + 1 =>
    match w.bytes.drop before with
    | 0 :: rest => some rest
    | _ => none

theorem take?_append (front rest : Bytes) (left : Nat) :
    (⟨front ++ rest, front.length + left⟩ : Window).take? front.length
      = some (front, ⟨rest, left⟩) := by
  have room : ¬front.length + left < front.length := by omega
  simp [take?, room]

theorem number?_append {width n : Nat} (fits : n < LittleEndian.capacity width) (rest : Bytes)
    (left : Nat) :
    (⟨LittleEndian.digits width n ++ rest, width + left⟩ : Window).number? width
      = some (n, ⟨rest, left⟩) := by
  have taken := take?_append (LittleEndian.digits width n) rest left
  rw [LittleEndian.length_digits] at taken
  rw [number?, taken]
  simp [LittleEndian.value_digits fits]

theorem word32?_append (n : UInt32) (rest : Bytes) (left : Nat) :
    (⟨LittleEndian.ofWord32 n ++ rest, 4 + left⟩ : Window).word32? = some (n, ⟨rest, left⟩) := by
  have fits : n.toNat < LittleEndian.capacity 4 := n.toNat_lt
  simp [word32?, LittleEndian.ofWord32, number?_append fits]

theorem word64?_append (n : UInt64) (rest : Bytes) (left : Nat) :
    (⟨LittleEndian.ofWord64 n ++ rest, 8 + left⟩ : Window).word64? = some (n, ⟨rest, left⟩) := by
  have fits : n.toNat < LittleEndian.capacity 8 := n.toNat_lt
  simp [word64?, LittleEndian.ofWord64, number?_append fits]

theorem text?_append (s : String) (rest : Bytes) (left : Nat) :
    (⟨Utf8.encode s ++ 0 :: rest, (Utf8.encode s).length + (left + 1)⟩ : Window).text?
      (Utf8.encode s).length = some (s, ⟨rest, left⟩) := by
  rw [text?, take?_append]
  simp [next?, Utf8.decode?_encode]

theorem zeroEnded?_append {s : String} (free : (0 : UInt8) ∉ Utf8.encode s) (rest : Bytes)
    (left : Nat) :
    (⟨Utf8.encode s ++ 0 :: rest, (Utf8.encode s).length + (left + 1)⟩ : Window).zeroEnded?
      = some (s, ⟨rest, left⟩) := by
  have front : (Utf8.encode s ++ 0 :: rest).takeWhile (· ≠ 0) = Utf8.encode s := by
    rw [List.takeWhile_append_of_pos]
    · simp
    · intro b mem
      have : b ≠ 0 := fun zero => free (zero ▸ mem)
      simpa using this
  rw [zeroEnded?, front, text?_append]

end Window

end CallTrace.Bson
