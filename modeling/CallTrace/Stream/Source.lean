import CallTrace.Bytes.Basic
import CallTrace.Stream.Failure

/-!
A transport to read from, as plain data: the bytes that it still has, how much each call serves at
most, and the failures that are raised at given positions. A failure is raised once, by the call
made when its position is reached, and no call serves bytes beyond the next failure's position.

`fill` makes calls until it has as many bytes as were asked for or the bytes end; interruptions are
passed over. `fill_length_le` says that it takes what it returns from the front of the bytes.
-/

namespace CallTrace

/-- A transport to read from. -/
structure Source where
  /-- The bytes not yet served. -/
  pending : Bytes
  /-- How many bytes have been served. -/
  served : Nat
  /-- How many calls have been made. -/
  calls : Nat
  /-- The most bytes that a call serves, by the number of the call; no limit if absent. -/
  limit : Nat → Option Nat
  /-- Failures still to come, with the number of bytes served before each, in order. -/
  failures : List (Nat × Failure)

namespace Source

/-- A transport over some bytes with one limit for all calls and failures planned in any order. -/
def ofBytes (bytes : Bytes) (chunk : Option Nat) (failures : List (Nat × Failure)) : Source :=
  ⟨bytes, 0, 0, fun _ => chunk, Failure.inOrder failures⟩

/-- Serve at most `most` bytes. -/
def serve (s : Source) (most : Nat) : Bytes × Source :=
  let front := takeUpTo (leastLimit (some most) (s.limit s.calls)) s.pending
  (front, { s with
    pending := s.pending.drop front.length
    served := s.served + front.length
    calls := s.calls + 1 })

/-- One read call for at most `most` bytes. No bytes mean the end. -/
def read (s : Source) (most : Nat) : Except Failure Bytes × Source :=
  match s.failures with
  | [] =>
    let (front, s) := s.serve most
    (.ok front, s)
  | (position, failure) :: later =>
    if position ≤ s.served then
      (.error failure, { s with calls := s.calls + 1, failures := later })
    else
      let (front, s) := s.serve (min most (position - s.served))
      (.ok front, s)

/-- What a source has yet to do: bytes to serve and failures to raise. -/
def remaining (s : Source) : Nat := s.pending.length + s.failures.length

theorem takeUpTo_eq_take {α : Type} (limit : Option Nat) (xs : List α) :
    takeUpTo limit xs = xs.take (takeUpTo limit xs).length := by
  cases limit with
  | none => simp [takeUpTo]
  | some n =>
    by_cases h : n ≤ xs.length
    · simp [takeUpTo, Nat.min_eq_left h]
    · simp [takeUpTo, List.take_of_length_le (Nat.le_of_not_le h)]

theorem length_serve_le (s : Source) (most : Nat) : (s.serve most).1.length ≤ most := by
  simp only [serve]
  cases s.limit s.calls with
  | none =>
    simp only [leastLimit, takeUpTo, List.length_take]
    exact Nat.min_le_left ..
  | some n =>
    simp only [leastLimit, takeUpTo, List.length_take]
    exact Nat.le_trans (Nat.min_le_left ..) (Nat.min_le_left ..)

theorem serve_append (s : Source) (most : Nat) :
    (s.serve most).1 ++ (s.serve most).2.pending = s.pending := by
  have split := List.take_append_drop (s.serve most).1.length s.pending
  rwa [serve, ← takeUpTo_eq_take] at split

/-- A read call serves the front of the bytes. -/
theorem read_ok_append {s t : Source} {most : Nat} {front : Bytes}
    (h : s.read most = (.ok front, t)) : front ++ t.pending = s.pending := by
  unfold read at h
  split at h
  · cases h; exact s.serve_append most
  · split at h
    · cases h
    · cases h; exact s.serve_append _

/-- A read call never serves more than it was asked for. -/
theorem length_read_ok_le {s t : Source} {most : Nat} {front : Bytes}
    (h : s.read most = (.ok front, t)) : front.length ≤ most := by
  unfold read at h
  split at h
  · cases h; exact s.length_serve_le most
  · split at h
    · cases h
    · cases h; exact Nat.le_trans (s.length_serve_le _) (Nat.min_le_left ..)

theorem read_ok_failures {s t : Source} {most : Nat} {front : Bytes}
    (h : s.read most = (.ok front, t)) : t.failures = s.failures := by
  unfold read at h
  split at h
  · cases h; rfl
  · split at h
    · cases h
    · cases h; rfl

theorem remaining_read_ok {s t : Source} {most : Nat} {front : Bytes}
    (h : s.read most = (.ok front, t)) : t.remaining + front.length = s.remaining := by
  have bytes := congrArg List.length (read_ok_append h)
  rw [List.length_append] at bytes
  rw [remaining, remaining, read_ok_failures h]
  omega

/-- A failing read call serves nothing. -/
theorem read_error_pending {s t : Source} {most : Nat} {failure : Failure}
    (h : s.read most = (.error failure, t)) : t.pending = s.pending := by
  unfold read at h
  split at h
  · cases h
  · split at h
    · cases h; rfl
    · cases h

theorem remaining_read_error {s t : Source} {most : Nat} {failure : Failure}
    (h : s.read most = (.error failure, t)) : t.remaining + 1 = s.remaining := by
  unfold read at h
  split at h
  · cases h
  · next here =>
    split at h
    · cases h; simp [remaining, here]; omega
    · cases h

/-- Read until `want` further bytes have come or the bytes end, behind those already collected. -/
def fillFrom (s : Source) (want : Nat) (got : Array UInt8) : Except String Bytes × Source :=
  if want = 0 then (.ok got.toList, s)
  else
    match _outcome : s.read want with
    | (.ok front, t) =>
      if front.isEmpty || front.length == want then (.ok (got.toList ++ front), t)
      else t.fillFrom (want - front.length) (got ++ front)
    | (.error .interrupted, t) => t.fillFrom want got
    | (.error (.fault text), t) => (.error text, t)
termination_by s.remaining
decreasing_by
  · have := remaining_read_ok _outcome
    have : front.length ≠ 0 := by
      intro none
      have more : ¬(front.isEmpty || front.length == want) = true := by assumption
      exact more (by simp [List.length_eq_zero_iff.1 none])
    omega
  · have := remaining_read_error _outcome
    omega

/-- Read until `want` bytes have come or the bytes end; fewer bytes mean the end. -/
def fill (s : Source) (want : Nat) : Except String Bytes × Source := s.fillFrom want #[]

theorem fillFrom_ok {s t : Source} {want : Nat} {got : Array UInt8} {bytes : Bytes}
    (h : s.fillFrom want got = (.ok bytes, t)) :
    ∃ front, bytes = got.toList ++ front ∧ front ++ t.pending = s.pending ∧
      front.length ≤ want := by
  fun_induction fillFrom s want got with
  | case1 s got => cases h; exact ⟨[], by simp⟩
  | case2 s want got nz front t' hr he =>
    cases h
    exact ⟨front, rfl, read_ok_append hr, length_read_ok_le hr⟩
  | case3 s want got nz front t' hr he ih =>
    obtain ⟨more, eq, rest, le⟩ := ih h
    refine ⟨front ++ more, ?_, ?_, ?_⟩
    · simp [eq]
    · rw [List.append_assoc, rest, read_ok_append hr]
    · have := length_read_ok_le hr
      simp only [List.length_append]
      omega
  | case4 s want got nz t' hr ih =>
    obtain ⟨more, eq, rest, le⟩ := ih h
    exact ⟨more, eq, by rw [rest, read_error_pending hr], le⟩
  | case5 s want got nz text t' hr => cases h

/-- What `fill` returns was the front of the bytes. -/
theorem fill_ok_append {s t : Source} {want : Nat} {bytes : Bytes}
    (h : s.fill want = (.ok bytes, t)) : bytes ++ t.pending = s.pending := by
  obtain ⟨front, eq, append, -⟩ := fillFrom_ok h
  simpa [eq] using append

/-- `fill` never returns more than it was asked for. -/
theorem fill_length_le {s t : Source} {want : Nat} {bytes : Bytes}
    (h : s.fill want = (.ok bytes, t)) : bytes.length ≤ want := by
  obtain ⟨front, eq, -, le⟩ := fillFrom_ok h
  simpa [eq] using le

end Source

end CallTrace
