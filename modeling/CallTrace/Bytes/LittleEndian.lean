import CallTrace.Bytes.Basic

/-!
Numbers as octets, the least significant first. `value_digits` says that a number that fits its
width is read back, and `value_lt` that some octets never spell a number beyond their width.
-/

namespace CallTrace.LittleEndian

/-- The lowest `width` octets of a number, the least significant first. -/
def digits : Nat → Nat → Bytes
  | 0, _ => []
  | width + 1, n => UInt8.ofNat n :: digits width (n / 256)

/-- The number that octets spell, the least significant first. -/
def value : Bytes → Nat
  | [] => 0
  | b :: rest => b.toNat + 256 * value rest

@[simp] theorem length_digits (width n : Nat) : (digits width n).length = width := by
  induction width generalizing n with
  | zero => rfl
  | succ width ih => simp [digits, ih]

/-- How many numbers fit a width. -/
def capacity : Nat → Nat
  | 0 => 1
  | width + 1 => 256 * capacity width

theorem value_digits {width n : Nat} (fits : n < capacity width) : value (digits width n) = n := by
  induction width generalizing n with
  | zero =>
    have : n = 0 := Nat.lt_one_iff.1 fits
    simp [digits, value, this]
  | succ width ih =>
    simp only [capacity] at fits
    have quotient : n / 256 < capacity width := by omega
    simp only [digits, value, UInt8.toNat_ofNat', ih quotient]
    omega

theorem value_lt (bytes : Bytes) : value bytes < capacity bytes.length := by
  induction bytes with
  | nil => simp [value, capacity]
  | cons b rest ih =>
    have := b.toNat_lt
    simp only [value, capacity, List.length_cons]
    omega

/-- The octets of a 32-bit word. -/
def ofWord32 (w : UInt32) : Bytes := digits 4 w.toNat

/-- The octets of a 64-bit word. -/
def ofWord64 (w : UInt64) : Bytes := digits 8 w.toNat

end CallTrace.LittleEndian
