import CallTrace.Bytes.Basic

/-!
Hexadecimal text: two digits for an octet, or the digits of a number padded to a width. Digits are
written in lower case and read in either; `decodeChars?_chars` says that octets are read back.
-/

namespace CallTrace.Hex

/-- The lower-case digit of a value below sixteen. -/
def digit (n : Nat) : Char :=
  if n < 10 then Char.ofNat (48 + n) else Char.ofNat (87 + n)

/-- The value of a digit of either case. -/
def digitValue? (c : Char) : Option Nat :=
  if '0' ≤ c ∧ c ≤ '9' then some (c.toNat - 48)
  else if 'a' ≤ c ∧ c ≤ 'f' then some (c.toNat - 87)
  else if 'A' ≤ c ∧ c ≤ 'F' then some (c.toNat - 55)
  else none

theorem digitValue?_digit {n : Nat} (small : n < 16) : digitValue? (digit n) = some n := by
  have all : ∀ m ∈ List.range 16, digitValue? (digit m) = some m := by decide
  exact all n (List.mem_range.mpr small)

/-- The two digits of an octet, the high one first. -/
def octet (b : UInt8) : List Char := [digit (b.toNat / 16), digit (b.toNat % 16)]

/-- Two digits for each octet, in order. -/
def chars (bytes : Bytes) : List Char := bytes.flatMap octet

/-- The text of some octets: two lower-case digits each. -/
def encode (bytes : Bytes) : String := String.ofList (chars bytes)

/-- The octets that pairs of digits spell; nothing else may occur. -/
def decodeChars? : List Char → Option Bytes
  | [] => some []
  | [_] => none
  | hi :: lo :: rest => do
    let h ← digitValue? hi
    let l ← digitValue? lo
    let bytes ← decodeChars? rest
    pure (UInt8.ofNat (16 * h + l) :: bytes)

theorem decodeChars?_chars (bytes : Bytes) : decodeChars? (chars bytes) = some bytes := by
  induction bytes with
  | nil => rfl
  | cons b rest ih =>
    have bound := b.toNat_lt
    have high : digitValue? (digit (b.toNat / 16)) = some (b.toNat / 16) :=
      digitValue?_digit (by omega)
    have low : digitValue? (digit (b.toNat % 16)) = some (b.toNat % 16) :=
      digitValue?_digit (by omega)
    have whole : UInt8.ofNat (16 * (b.toNat / 16) + b.toNat % 16) = b := by
      rw [Nat.div_add_mod, UInt8.ofNat_toNat]
    change decodeChars? (_ :: _ :: chars rest) = _
    simp only [decodeChars?, high, low, ih, Option.bind_eq_bind, Option.bind_some, whole]
    rfl

/-- The digits of a number, the most significant first; none for zero. -/
def digitsOf (n : Nat) : List Char :=
  if n = 0 then [] else digitsOf (n / 16) ++ [digit (n % 16)]
termination_by n

/-- A number in at least `width` digits, zeros in front. -/
def padded (width n : Nat) : String :=
  let ds := digitsOf n
  String.ofList (List.replicate (width - ds.length) '0' ++ ds)

end CallTrace.Hex
