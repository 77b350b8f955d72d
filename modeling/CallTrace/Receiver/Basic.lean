import CallTrace.Receiver.Session

/-!
A receiver turns the frames of a stream into records, one `next` at a time. A frame that is refused
for a reason of its own is dropped; any other error ends the stream for good, as does its end.

Every frame takes bytes from the stream, so `next` and `records` end for every stream.
-/

namespace CallTrace

/-- A receiver in the middle of a stream. -/
structure Receiver (σ : Type) where
  source : Source
  table : CallTable
  store : BufferStore σ
  session : Session σ
  /-- The bytes of all frames read completely. -/
  consumed : Nat
  /-- Whether the stream has ended. -/
  done : Bool
  /-- The error that ended the stream, if one did. -/
  fault : Option DecodeError
  /-- The errors of the frames that were dropped, in order. -/
  dropped : Array DecodeError

namespace Receiver

variable {σ : Type}

/-- A receiver at the start of a stream. -/
def start (source : Source) (table : CallTable) (store : BufferStore σ) (kept : σ) :
    Receiver σ :=
  ⟨source, table, store, .initial kept, 0, false, none, #[]⟩

/-- What one frame comes to. -/
inductive Step where
  | yielded (record : Record)
  | skipped
  | dropped
  | ended

/-- End the stream with an error. -/
def fail (r : Receiver σ) (e : DecodeError) : Receiver σ := { r with done := true, fault := some e }

/-- Take the body of a frame. -/
def takeBody (r : Receiver σ) (body : Bytes) : Step × Receiver σ :=
  let r := { r with consumed := r.consumed + body.length + Frame.lengthSize }
  match r.session.acceptBody r.table r.store body with
  | (.ok (some record), session) => (.yielded record, { r with session })
  | (.ok none, session) => (.skipped, { r with session })
  | (.error e, session) =>
    if e.isFatal then (.ended, { r with session }.fail e)
    else (.dropped, { r with session, dropped := r.dropped.push e })

/-- Read one frame and take it. -/
def step (r : Receiver σ) : Step × Receiver σ :=
  match Frame.read r.source with
  | (.error e, source) => (.ended, { r with source }.fail (.frame e))
  | (.ok none, source) => (.ended, { r with source, done := true })
  | (.ok (some body), source) => { r with source }.takeBody body

/-- The source is not touched by what a frame says. -/
theorem source_takeBody (r : Receiver σ) (body : Bytes) :
    (r.takeBody body).2.source = r.source := by
  simp only [takeBody]
  split
  · rfl
  · rfl
  · split <;> rfl

/-- A frame that does not end the stream takes bytes from it. -/
theorem length_pending_step_lt {r t : Receiver σ} {s : Step} (h : r.step = (s, t))
    (going : s ≠ .ended) : t.source.pending.length < r.source.pending.length := by
  unfold step at h
  split at h
  · cases h; exact absurd rfl going
  · cases h; exact absurd rfl going
  · next body source frame =>
    have := congrArg (fun p => p.2.source) h
    rw [source_takeBody] at this
    rw [← this]
    exact Frame.length_pending_lt frame

/-- The next record, if there is one, and the receiver after it. -/
def next (r : Receiver σ) : Option Record × Receiver σ :=
  if r.done then (none, r)
  else
    match _outcome : r.step with
    | (.yielded record, t) => (some record, t)
    | (.skipped, t) => t.next
    | (.dropped, t) => t.next
    | (.ended, t) => (none, t)
termination_by r.source.pending.length
decreasing_by
  · exact length_pending_step_lt _outcome (by simp)
  · exact length_pending_step_lt _outcome (by simp)

/-- A record takes bytes from the stream. -/
theorem length_pending_next_lt {r t : Receiver σ} {record : Record}
    (h : r.next = (some record, t)) : t.source.pending.length < r.source.pending.length := by
  fun_induction next r with
  | case1 => cases h
  | case2 r _ record' t' outcome =>
    cases h
    exact length_pending_step_lt outcome (by simp)
  | case3 r _ t' outcome ih =>
    exact Nat.lt_trans (ih h) (length_pending_step_lt outcome (by simp))
  | case4 r _ t' outcome ih =>
    exact Nat.lt_trans (ih h) (length_pending_step_lt outcome (by simp))
  | case5 => cases h

/-- All further records, behind those already taken, and the receiver at the end. -/
def recordsFrom (r : Receiver σ) (taken : Array Record) : List Record × Receiver σ :=
  match _outcome : r.next with
  | (none, t) => (taken.toList, t)
  | (some record, t) => t.recordsFrom (taken.push record)
termination_by r.source.pending.length
decreasing_by exact length_pending_next_lt _outcome

/-- All further records, and the receiver at the end. -/
def records (r : Receiver σ) : List Record × Receiver σ := r.recordsFrom #[]

/-- How forwarding records to a sink ended. -/
inductive Drained where
  /-- The stream ended; so many records were taken. -/
  | all (count : Nat)
  /-- The sink refused a record. -/
  | refused
  deriving DecidableEq, Repr

/-- Forward all further records to a sink that has taken `count` already, until it refuses one. -/
def drainFrom {τ : Type} (sink : RecordSink τ) (r : Receiver σ) (state : τ) (count : Nat) :
    Drained × τ × Receiver σ :=
  match _outcome : r.next with
  | (none, t) => (.all count, state, t)
  | (some record, t) =>
    match sink.accept state record with
    | (false, state) => (.refused, state, t)
    | (true, state) => drainFrom sink t state (count + 1)
termination_by r.source.pending.length
decreasing_by exact length_pending_next_lt _outcome

/-- Forward all further records to a sink, until it refuses one. -/
def drain {τ : Type} (sink : RecordSink τ) (r : Receiver σ) (state : τ) :
    Drained × τ × Receiver σ :=
  drainFrom sink r state 0

end Receiver

end CallTrace
