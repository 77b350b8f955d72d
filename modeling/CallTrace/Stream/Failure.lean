/-!
What can go wrong in one call to a transport: an interruption, after which the call may be made
again, or a fault with a text of its own. Failures are planned for positions of a stream, in any
order; `Failure.inOrder` puts them into the order in which a stream meets them.
-/

namespace CallTrace

/-- How one read, write or flush call fails. -/
inductive Failure where
  | interrupted
  | fault (text : String)
  deriving DecidableEq, Repr

/-- The text of a failure. -/
def Failure.text : Failure → String
  | .interrupted => "interrupted"
  | .fault text => text

/-- Put a failure in front of the first that is not met before it. -/
def Failure.place (planned : Nat × Failure) : List (Nat × Failure) → List (Nat × Failure)
  | [] => [planned]
  | next :: later =>
    if planned.1 ≤ next.1 then planned :: next :: later else next :: place planned later

/-- Planned failures by their positions; those of one position keep their order. -/
def Failure.inOrder (planned : List (Nat × Failure)) : List (Nat × Failure) :=
  planned.foldr place []

theorem Failure.mem_place_iff {planned other : Nat × Failure} {later : List (Nat × Failure)} :
    other ∈ place planned later ↔ other = planned ∨ other ∈ later := by
  induction later with
  | nil => exact List.mem_cons
  | cons next later ih =>
    rw [place]
    split
    · exact List.mem_cons
    · rw [List.mem_cons, List.mem_cons, ih, or_left_comm]

/-- No failure is lost or added when they are put in order. -/
theorem Failure.mem_inOrder_iff {planned : List (Nat × Failure)} {other : Nat × Failure} :
    other ∈ inOrder planned ↔ other ∈ planned := by
  induction planned with
  | nil => exact Iff.rfl
  | cons first rest ih =>
    have step : inOrder (first :: rest) = place first (inOrder rest) := rfl
    rw [step, mem_place_iff, List.mem_cons, ih]

/-- The least of two limits, of which either may be absent. -/
def leastLimit : Option Nat → Option Nat → Option Nat
  | none, limit => limit
  | limit, none => limit
  | some m, some n => some (min m n)

/-- The front of a list up to a limit. -/
def takeUpTo {α : Type} (limit : Option Nat) (xs : List α) : List α :=
  match limit with
  | none => xs
  | some n => xs.take n

end CallTrace
