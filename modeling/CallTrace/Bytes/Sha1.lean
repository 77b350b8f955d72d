import CallTrace.Bytes.Basic

/-!
The digest SHA-1 of FIPS 180-4 on lists of octets: the message is padded to whole blocks of 64
octets, and each block stirs a state of five words in eighty rounds.
-/

namespace CallTrace.Sha1

/-- The five words that the rounds stir. -/
structure State where
  a : UInt32
  b : UInt32
  c : UInt32
  d : UInt32
  e : UInt32
  deriving DecidableEq, Repr

/-- The state before the first block. -/
def State.initial : State := ⟨0x67452301, 0xEFCDAB89, 0x98BADCFE, 0x10325476, 0xC3D2E1F0⟩

/-- Rotation to the left by `k` places, for `k` between 1 and 31. -/
def rotate (w k : UInt32) : UInt32 := (w <<< k) ||| (w >>> (32 - k))

/-- A word from four octets, the most significant first. -/
def word (a b c d : UInt8) : UInt32 :=
  (a.toUInt32 <<< 24) ||| (b.toUInt32 <<< 16) ||| (c.toUInt32 <<< 8) ||| d.toUInt32

/-- The four octets of a word, the most significant first. -/
def octets (w : UInt32) : Bytes :=
  [(w >>> 24).toUInt8, (w >>> 16).toUInt8, (w >>> 8).toUInt8, w.toUInt8]

/-- The words of a block, appended to those already read. -/
def words (acc : Array UInt32) : Bytes → Array UInt32
  | a :: b :: c :: d :: rest => words (acc.push (word a b c d)) rest
  | _ => acc

/-- Extend a block's sixteen words: each further one mixes four earlier ones. -/
def extend : Nat → Array UInt32 → Array UInt32
  | 0, ws => ws
  | n + 1, ws =>
    let t := ws.size
    let w := ws.getD (t - 3) 0 ^^^ ws.getD (t - 8) 0 ^^^ ws.getD (t - 14) 0 ^^^ ws.getD (t - 16) 0
    extend n (ws.push (rotate w 1))

/-- The selection of the round `t`, with its constant added. -/
def select (t : Nat) (b c d : UInt32) : UInt32 :=
  if t < 20 then ((b &&& c) ||| (~~~b &&& d)) + 0x5A827999
  else if t < 40 then (b ^^^ c ^^^ d) + 0x6ED9EBA1
  else if t < 60 then ((b &&& c) ||| (b &&& d) ||| (c &&& d)) + 0x8F1BBCDC
  else (b ^^^ c ^^^ d) + 0xCA62C1D6

/-- One round with the word `w`. -/
def round (t : Nat) (w : UInt32) (s : State) : State :=
  ⟨rotate s.a 5 + select t s.b s.c s.d + s.e + w, s.a, rotate s.b 30, s.c, s.d⟩

/-- The last `n` of the eighty rounds. -/
def rounds (ws : Array UInt32) : Nat → State → State
  | 0, s => s
  | n + 1, s => rounds ws n (round (79 - n) (ws.getD (79 - n) 0) s)

/-- Stir one block into the state. -/
def block (s : State) (bytes : Bytes) : State :=
  let t := rounds (extend 64 (words #[] bytes)) 80 s
  ⟨s.a + t.a, s.b + t.b, s.c + t.c, s.d + t.d, s.e + t.e⟩

/-- Stir `n` blocks of 64 octets from the front of the bytes into the state. -/
def blocks : Nat → Bytes → State → State
  | 0, _, s => s
  | n + 1, bytes, s => blocks n (bytes.drop 64) (block s (bytes.take 64))

/-- What follows a message of `len` octets: a one bit, zeros up to eight octets before the end of
a block, and the length in bits as a word of eight octets, the most significant first. -/
def padding (len : Nat) : Bytes :=
  let bits := UInt64.ofNat (8 * len)
  (0x80 : UInt8) :: List.replicate ((119 - len % 64) % 64) (0 : UInt8)
    ++ octets (bits >>> 32).toUInt32 ++ octets bits.toUInt32

/-- The twenty octets of the digest. -/
def digest (message : Bytes) : Bytes :=
  let padded := message ++ padding message.length
  let s := blocks (padded.length / 64) padded State.initial
  octets s.a ++ octets s.b ++ octets s.c ++ octets s.d ++ octets s.e

theorem length_digest (message : Bytes) : (digest message).length = 20 := rfl

end CallTrace.Sha1
