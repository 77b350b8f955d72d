import CallTrace.Bytes.Hex

/-!
Numbers spelled by digits. A numeral needs at least one digit; the signed form admits one sign in
front, the unsigned one at most a plus. Both are read within bounds: digits never make a number
smaller, so `digitsUpTo?` stops at the first number beyond its bound. `digitsUpTo?_eq` says that
nothing else is different from reading all the digits.
-/

namespace CallTrace.Numeral

/-- The value of a digit in a base of at most sixteen. -/
def digit? (base : Nat) (c : Char) : Option Nat :=
  (Hex.digitValue? c).filter (· < base)

/-- The number that digits spell after those whose value is `acc`; nothing else may occur. -/
def digitsFrom? (base : Nat) (acc : Nat) : List Char → Option Nat
  | [] => some acc
  | c :: rest => do
    let d ← digit? base c
    digitsFrom? base (acc * base + d) rest

/-- The number that one or more digits spell. -/
def digits? (base : Nat) : List Char → Option Nat
  | [] => none
  | cs => digitsFrom? base 0 cs

/-- The number that digits spell after those whose value is `acc`, if it is at most `bound`. -/
def digitsUpToFrom? (base bound acc : Nat) : List Char → Option Nat
  | [] => if acc ≤ bound then some acc else none
  | c :: rest =>
    if bound < acc then none
    else do
      let d ← digit? base c
      digitsUpToFrom? base bound (acc * base + d) rest

/-- The number that one or more digits spell, if it is at most `bound`. -/
def digitsUpTo? (base bound : Nat) : List Char → Option Nat
  | [] => none
  | cs => digitsUpToFrom? base bound 0 cs

/-- Further digits never make a number smaller. -/
theorem le_of_digitsFrom? {base acc n : Nat} {cs : List Char} (base_pos : 0 < base)
    (h : digitsFrom? base acc cs = some n) : acc ≤ n := by
  induction cs generalizing acc with
  | nil => cases h; exact Nat.le_refl _
  | cons c rest ih =>
    obtain ⟨d, -, more⟩ := Option.bind_eq_some_iff.1 h
    have := ih more
    have := Nat.le_mul_of_pos_right acc base_pos
    omega

theorem digitsUpToFrom?_eq {base : Nat} (base_pos : 0 < base) (bound acc : Nat) (cs : List Char) :
    digitsUpToFrom? base bound acc cs = (digitsFrom? base acc cs).filter (· ≤ bound) := by
  induction cs generalizing acc with
  | nil => by_cases h : acc ≤ bound <;> simp [digitsUpToFrom?, digitsFrom?, Option.filter, h]
  | cons c rest ih =>
    by_cases beyond : bound < acc
    · rw [digitsUpToFrom?, if_pos beyond, eq_comm, Option.filter_eq_none_iff]
      intro n h
      have := le_of_digitsFrom? base_pos h
      simp only [decide_eq_true_eq]
      omega
    · rw [digitsUpToFrom?, if_neg beyond, digitsFrom?]
      cases digit? base c with
      | none => rfl
      | some d => exact ih _

/-- Reading up to a bound is reading all the digits and then looking at the bound. -/
theorem digitsUpTo?_eq {base : Nat} (base_pos : 0 < base) (bound : Nat) (cs : List Char) :
    digitsUpTo? base bound cs = (digits? base cs).filter (· ≤ bound) := by
  cases cs with
  | nil => rfl
  | cons c rest => exact digitsUpToFrom?_eq base_pos bound 0 (c :: rest)

/-- The number up to a bound that one or more digits spell, with at most one plus in front. -/
def unsignedUpTo? (base bound : Nat) : List Char → Option Nat
  | '+' :: rest => digitsUpTo? base bound rest
  | cs => digitsUpTo? base bound cs

/-- The number from `low` to `high`, of which zero is one, that one or more digits spell, with at
most one sign in front. -/
def signedWithin? (base : Nat) (low high : Int) : List Char → Option Int
  | '-' :: rest => (digitsUpTo? base low.natAbs rest).map fun n => -(n : Int)
  | cs => (unsignedUpTo? base high.natAbs cs).map fun n => (n : Int)

/-- The number of exactly `count` decimal digits in front, if it is within bounds, and what follows
them. -/
def takeField? (count low high : Nat) (cs : List Char) : Option (Nat × List Char) := do
  let ds := cs.take count
  let n ← if ds.length = count then digits? 10 ds else none
  if low ≤ n ∧ n ≤ high then some (n, cs.drop count) else none

/-- The decimal digits of a number, the most significant first. -/
def decimal (n : Nat) : List Char := Nat.toDigits 10 n

/-- A number in at least `width` decimal digits, zeros in front. -/
def padded (width n : Nat) : String :=
  let ds := decimal n
  String.ofList (List.replicate (width - ds.length) '0' ++ ds)

end CallTrace.Numeral
