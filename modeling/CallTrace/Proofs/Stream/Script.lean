import CallTrace.Stream.Sink

/-!
Transports whose calls come out as laid down, one by one. A script has for each write call how many
bytes it accepts at most, or how it fails; `exists_sink_of_script` says that there is a transport
for every script, and for every choice of the flush calls that fail. It accepts nothing in a call
and fails in the next, if so laid down, though no byte moves in between.
-/

namespace CallTrace.Sink

variable {w : Sink} {outcome : Except Failure Nat} {script later : List (Except Failure Nat)}

/-- The failures in a script that begins behind so many calls. -/
def plannedFrom (calls : Nat) : List (Except Failure Nat) → List PlannedFailure
  | [] => []
  | .ok _ :: later => plannedFrom (calls + 1) later
  | .error failure :: later => ⟨0, calls, failure⟩ :: plannedFrom (calls + 1) later

/-- Whether the next calls come out as a script has it. -/
structure Follows (w : Sink) (script : List (Except Failure Nat)) : Prop where
  unbounded : w.stall = none
  limits : ∀ i n, script[i]? = some (.ok n) → w.limit (w.calls + i) = some n
  failures : w.failures = plannedFrom w.calls script

theorem plannedFrom_bounds {calls : Nat} {planned : PlannedFailure}
    (mem : planned ∈ plannedFrom calls script) : planned.position = 0 ∧ calls ≤ planned.call := by
  induction script generalizing calls with
  | nil => cases mem
  | cons outcome later ih =>
    cases outcome with
    | ok n =>
      obtain ⟨position, after⟩ := ih mem
      exact ⟨position, Nat.le_of_succ_le after⟩
    | error failure =>
      obtain rfl | mem := List.mem_cons.1 mem
      · exact ⟨rfl, Nat.le_refl calls⟩
      · obtain ⟨position, after⟩ := ih mem
        exact ⟨position, Nat.le_of_succ_le after⟩

/-- The rest of a script is followed by a transport that only made a call. -/
theorem Follows.tail {v : Sink} (follows : w.Follows (outcome :: later)) (stall : v.stall = w.stall)
    (limit : v.limit = w.limit) (calls : v.calls = w.calls + 1)
    (failures : v.failures = plannedFrom (w.calls + 1) later) : v.Follows later := by
  refine ⟨stall.trans follows.unbounded, fun i n here => ?_, by rw [failures, calls]⟩
  rw [limit, calls, Nat.add_assoc, Nat.add_comm 1]
  exact follows.limits (i + 1) n here

/-- A failure that awaits its call leaves all room. -/
theorem write_of_awaited (awaited : ∀ planned ∈ w.failures,
    planned.position = 0 ∧ w.calls < planned.call) (bytes : Bytes) :
    w.write bytes = (.ok (w.accept none bytes).1, (w.accept none bytes).2) := by
  unfold write
  cases here : w.failures with
  | nil => rfl
  | cons planned later =>
    obtain ⟨position, early⟩ := awaited planned (here ▸ List.mem_cons_self)
    have room : w.roomBefore planned = none := if_pos (position ▸ Nat.zero_le _)
    dsimp only
    rw [if_neg fun due => Nat.not_le.2 early due.2, room]

/-- A call comes out as the script has it, and the others are still to come. -/
theorem Follows.write (follows : w.Follows (outcome :: later)) (bytes : Bytes) :
    (w.write bytes).1 = outcome.map (bytes.take ·) ∧ (w.write bytes).2.Follows later := by
  cases outcome with
  | ok n =>
    have limit : w.limit w.calls = some n := follows.limits 0 n rfl
    have awaited : ∀ planned ∈ w.failures, planned.position = 0 ∧ w.calls < planned.call := by
      intro planned mem
      rw [follows.failures] at mem
      exact plannedFrom_bounds mem
    rw [write_of_awaited awaited]
    refine ⟨?_, follows.tail rfl rfl rfl follows.failures⟩
    simp only [accept, follows.unbounded, limit, leastLimit, takeUpTo, Option.map_none]
    rfl
  | error failure =>
    have here : w.failures = ⟨0, w.calls, failure⟩ :: plannedFrom (w.calls + 1) later :=
      follows.failures
    unfold Sink.write
    rw [here]
    dsimp only
    rw [if_pos ⟨Nat.zero_le _, Nat.le_refl _⟩]
    exact ⟨rfl, follows.tail rfl rfl rfl rfl⟩

/-- A flush comes out as planned for its number, and leaves the script of the write calls. -/
theorem Follows.flush (follows : w.Follows script) :
    w.flush.1 = (w.flushFailure w.flushes).elim (.ok ()) .error ∧ w.flush.2.Follows script := by
  unfold Sink.flush
  cases w.flushFailure w.flushes with
  | none => exact ⟨rfl, follows.unbounded, follows.limits, follows.failures⟩
  | some failure => exact ⟨rfl, follows.unbounded, follows.limits, follows.failures⟩

/-- How calls come out that are made one after another. -/
def outcomes (w : Sink) : List Bytes → List (Except Failure Bytes)
  | [] => []
  | bytes :: later => (w.write bytes).1 :: (w.write bytes).2.outcomes later

theorem Follows.outcomes (follows : w.Follows script) {offered : List Bytes}
    (within : offered.length ≤ script.length) :
    w.outcomes offered
      = List.zipWith (fun outcome bytes => outcome.map (bytes.take ·)) script offered := by
  induction offered generalizing w script with
  | nil =>
    rw [List.zipWith_nil_right]
    rfl
  | cons bytes rest ih =>
    cases script with
    | nil => cases within
    | cons outcome later =>
      obtain ⟨first, after⟩ := follows.write bytes
      rw [Sink.outcomes, List.zipWith_cons_cons, first, ih after (Nat.le_of_succ_le_succ within)]

/-- Every script is that of a transport, with any choice of the flush calls that fail. -/
theorem exists_sink_of_script (script : List (Except Failure Nat))
    (flushFailure : Nat → Option Failure) :
    ∃ w : Sink, w.accepted = #[] ∧ w.flushes = 0 ∧ w.flushFailure = flushFailure ∧
      w.Follows script ∧ ∀ offered : List Bytes, offered.length ≤ script.length →
        w.outcomes offered
          = List.zipWith (fun outcome bytes => outcome.map (bytes.take ·)) script offered := by
  let limit (i : Nat) : Option Nat := script[i]?.bind Except.toOption
  let w : Sink := ⟨#[], 0, limit, none, plannedFrom 0 script, flushFailure, 0⟩
  have follows : w.Follows script := by
    refine ⟨rfl, fun i n here => ?_, rfl⟩
    change script[0 + i]?.bind Except.toOption = some n
    rw [Nat.zero_add, here]
    rfl
  exact ⟨w, rfl, rfl, rfl, follows, fun _ => follows.outcomes⟩

end CallTrace.Sink
