import CallTrace.Bytes.Basic
import CallTrace.Stream.Failure

/-!
A transport to write to, as plain data: the bytes that it has accepted, how much each call accepts
at most, the failures still to come, and a position from which it accepts nothing more. A failure is
planned for a position and for a call, and is raised once, by the first call made when its position
is reached that is not before its own. No call accepts bytes beyond the position of the next
failure. What a call accepts, what it raises and whether a flush fails can so be laid down by the
number of the call, for any outcomes one after another.

`writeAll` makes calls until all bytes are accepted; interruptions are passed over.
`writeAll_accepted` says that what it adds to the accepted bytes is always a front of its bytes.
-/

namespace CallTrace

/-- A failure of a write call: it is not raised before so many bytes are accepted, nor before so
many calls are made. -/
structure PlannedFailure where
  position : Nat
  call : Nat
  failure : Failure
  deriving DecidableEq, Repr

/-- A transport to write to. -/
structure Sink where
  /-- The bytes accepted so far. -/
  accepted : Array UInt8
  /-- How many write calls have been made. -/
  calls : Nat
  /-- The most bytes that a call accepts, by the number of the call; no limit if absent. -/
  limit : Nat → Option Nat
  /-- The number of bytes after which nothing more is accepted, if there is one. -/
  stall : Option Nat
  /-- Failures still to come, in order. -/
  failures : List PlannedFailure
  /-- The failure of a flush call, if it fails, by the number of the call. -/
  flushFailure : Nat → Option Failure
  /-- How many flush calls have been made. -/
  flushes : Nat

/-- How an attempt to write all bytes ends. -/
inductive WriteEnd where
  | complete
  | refused
  | fault (text : String)
  deriving DecidableEq, Repr

namespace Sink

/-- A transport with one limit for all calls, failures planned for positions in any order, and
perhaps one of the first flush call. -/
def scripted (chunk stall : Option Nat) (failures : List (Nat × Failure))
    (flushFailure : Option Failure) : Sink :=
  { accepted := #[], calls := 0, limit := fun _ => chunk, stall
    failures := (Failure.inOrder failures).map fun (position, failure) => ⟨position, 0, failure⟩
    flushFailure := fun call => if call = 0 then flushFailure else none
    flushes := 0 }

/-- A transport that accepts everything. -/
def unlimited : Sink := scripted none none [] none

/-- Accept a front of some bytes, of at most `room` bytes if there is such a limit. -/
def accept (w : Sink) (room : Option Nat) (bytes : Bytes) : Bytes × Sink :=
  let stallRoom := w.stall.map (· - w.accepted.size)
  let front := takeUpTo (leastLimit room (leastLimit stallRoom (w.limit w.calls))) bytes
  (front, { w with accepted := w.accepted ++ front, calls := w.calls + 1 })

/-- How many bytes may be accepted in front of a failure. At its position there is no bound, for
then it awaits its call. -/
def roomBefore (w : Sink) (planned : PlannedFailure) : Option Nat :=
  if planned.position ≤ w.accepted.size then none else some (planned.position - w.accepted.size)

/-- One write call: the front of the bytes that was accepted. -/
def write (w : Sink) (bytes : Bytes) : Except Failure Bytes × Sink :=
  match w.failures with
  | [] =>
    let (front, w) := w.accept none bytes
    (.ok front, w)
  | planned :: later =>
    if planned.position ≤ w.accepted.size ∧ planned.call ≤ w.calls then
      (.error planned.failure, { w with calls := w.calls + 1, failures := later })
    else
      let (front, w) := w.accept (w.roomBefore planned) bytes
      (.ok front, w)

/-- One flush call. -/
def flush (w : Sink) : Except Failure Unit × Sink :=
  let v := { w with flushes := w.flushes + 1 }
  match w.flushFailure w.flushes with
  | none => (.ok (), v)
  | some failure => (.error failure, v)

theorem accept_eq_take (w : Sink) (room : Option Nat) (bytes : Bytes) :
    (w.accept room bytes).1 ++ bytes.drop (w.accept room bytes).1.length = bytes := by
  simp only [accept]
  generalize leastLimit room _ = limit
  cases limit with
  | none => simp [takeUpTo]
  | some n =>
    by_cases h : n ≤ bytes.length
    · simp [takeUpTo, Nat.min_eq_left h]
    · simp [takeUpTo, List.take_of_length_le (Nat.le_of_not_le h)]

/-- A write call accepts a front of the bytes. -/
theorem write_ok_append {w v : Sink} {bytes front : Bytes} (h : w.write bytes = (.ok front, v)) :
    front ++ bytes.drop front.length = bytes := by
  unfold write at h
  split at h
  · cases h; exact w.accept_eq_take none bytes
  · split at h
    · cases h
    · cases h; exact w.accept_eq_take _ bytes

/-- What a write call accepts stands behind all that was accepted before. -/
theorem write_ok_accepted {w v : Sink} {bytes front : Bytes}
    (h : w.write bytes = (.ok front, v)) :
    v.accepted.toList = w.accepted.toList ++ front := by
  unfold write at h
  split at h
  · cases h; exact Array.toList_appendList
  · split at h
    · cases h
    · cases h; exact Array.toList_appendList

theorem write_ok_failures {w v : Sink} {bytes front : Bytes}
    (h : w.write bytes = (.ok front, v)) : v.failures = w.failures := by
  unfold write at h
  split at h
  · cases h; rfl
  · split at h
    · cases h
    · cases h; rfl

/-- A failing write call accepts nothing. -/
theorem write_error_accepted {w v : Sink} {bytes : Bytes} {failure : Failure}
    (h : w.write bytes = (.error failure, v)) : v.accepted = w.accepted := by
  unfold write at h
  split at h
  · cases h
  · split at h
    · cases h; rfl
    · cases h

theorem write_error_failures {w v : Sink} {bytes : Bytes} {failure : Failure}
    (h : w.write bytes = (.error failure, v)) :
    v.failures.length + 1 = w.failures.length := by
  unfold write at h
  split at h
  · cases h
  · next here =>
    split at h
    · cases h; simp [here]
    · cases h

/-- Write until all bytes are accepted, nothing is accepted, or a call fails for good. -/
def writeAll (w : Sink) (bytes : Bytes) : WriteEnd × Sink :=
  if bytes.isEmpty then (.complete, w)
  else
    match _outcome : w.write bytes with
    | (.ok front, v) =>
      if front.isEmpty then (.refused, v) else v.writeAll (bytes.drop front.length)
    | (.error .interrupted, v) => v.writeAll bytes
    | (.error (.fault text), v) => (.fault text, v)
termination_by bytes.length + w.failures.length
decreasing_by
  · have := write_ok_failures _outcome
    have front_ne : front.length ≠ 0 := by simpa using ‹¬front.isEmpty = true›
    have bytes_ne : bytes.length ≠ 0 := by simpa using ‹¬bytes.isEmpty = true›
    rw [this, List.length_drop]
    omega
  · have := write_error_failures _outcome
    omega

/-- What `writeAll` adds to the accepted bytes is a front of its bytes, and all of them if it
completes. -/
theorem writeAll_accepted (w : Sink) (bytes : Bytes) :
    ∃ front, (w.writeAll bytes).2.accepted.toList = w.accepted.toList ++ front ∧
      front <+: bytes ∧ ((w.writeAll bytes).1 = .complete ↔ front = bytes) := by
  fun_induction writeAll w bytes with
  | case1 w bytes empty => exact ⟨[], by simp_all⟩
  | case2 w bytes ne front v h empty =>
    have : front = [] := List.isEmpty_iff.1 empty
    subst this
    have nonempty : ¬ [] = bytes := by rintro rfl; simp at ne
    exact ⟨[], by simp [write_ok_accepted h], ⟨bytes, rfl⟩, by simp [nonempty]⟩
  | case3 w bytes ne front v h nonempty ih =>
    obtain ⟨more, eq, isPrefix, done⟩ := ih
    refine ⟨front ++ more, ?_, ?_, ?_⟩
    · rw [eq, write_ok_accepted h, List.append_assoc]
    · obtain ⟨rest, append⟩ := isPrefix
      exact ⟨rest, by rw [List.append_assoc, append, write_ok_append h]⟩
    · rw [done]
      constructor
      · rintro rfl; exact write_ok_append h
      · intro all
        have := write_ok_append h
        rw [← all] at this
        simpa [all] using (List.append_cancel_left this).symm
  | case4 w bytes ne v h ih =>
    obtain ⟨more, eq, isPrefix, done⟩ := ih
    exact ⟨more, by rw [eq, write_error_accepted h], isPrefix, done⟩
  | case5 w bytes ne text v h =>
    have nonempty : ¬ [] = bytes := by rintro rfl; simp at ne
    exact ⟨[], by simp [write_error_accepted h], ⟨bytes, rfl⟩, by simp [nonempty]⟩

end Sink

end CallTrace
