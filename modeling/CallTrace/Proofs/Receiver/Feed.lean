import CallTrace.Proofs.Frame.Grammar
import CallTrace.Proofs.Receiver.Refusal
import CallTrace.Receiver.Basic

/-!
A receiver as a consumer of frames. `feed` takes bodies one after another and knows no transport;
`records_of_supplies` says that a receiver on any transport with known supply is fed the frames at
the front of the bytes, and is then finished by whatever follows them.

`Taken` lists what the body of one frame can do to a receiver, and `Stepped` what the next step can.
The facts about whole runs are derived from them, frame by frame.
-/

namespace CallTrace.Receiver

variable {σ : Type}

/-! ## One frame -/

/-- The receiver with one more frame counted. -/
def counting (r : Receiver σ) (body : Bytes) : Receiver σ :=
  { r with consumed := r.consumed + body.length + Frame.lengthSize }

/-- What the body of a frame can do to a receiver. -/
inductive Taken (r : Receiver σ) (body : Bytes) : Step × Receiver σ → Prop
  | yielded {record : Record} {session : Session σ} :
    r.session.acceptBody r.table r.store body = (.ok (some record), session) →
    Taken r body (.yielded record, { r.counting body with session })
  | skipped {session : Session σ} :
    r.session.acceptBody r.table r.store body = (.ok none, session) →
    Taken r body (.skipped, { r.counting body with session })
  | dropped {e : DecodeError} :
    r.session.acceptBody r.table r.store body = (.error e, r.session) → e.isFatal = false →
    Taken r body (.dropped, { r.counting body with dropped := r.dropped.push e })
  | ended {e : DecodeError} :
    r.session.acceptBody r.table r.store body = (.error e, r.session) → e.isFatal = true →
    Taken r body (.ended, (r.counting body).fail e)

theorem taken_takeBody (r : Receiver σ) (body : Bytes) : Taken r body (r.takeBody body) := by
  unfold takeBody
  dsimp only
  split
  · next record session accepted => exact .yielded accepted
  · next session accepted => exact .skipped accepted
  · next e session refused =>
    obtain rfl := (Session.acceptBody_error refused).2
    split
    · next fatal => exact .ended refused fatal
    · next mild => exact .dropped refused (Bool.eq_false_iff.2 mild)

/-- The receiver on another transport. -/
def withSource (r : Receiver σ) (source : Source) : Receiver σ := { r with source }

@[simp] theorem done_withSource (r : Receiver σ) (source : Source) :
    (r.withSource source).done = r.done := rfl

/-- The transport has no part in what a body does. -/
theorem takeBody_withSource (r : Receiver σ) (source : Source) (body : Bytes) :
    (r.withSource source).takeBody body
      = ((r.takeBody body).1, (r.takeBody body).2.withSource source) := by
  simp only [takeBody, withSource]
  split
  · rfl
  · rfl
  · split <;> rfl

/-- What the next step can do to a receiver: no frame can be read, no frame follows, or the body of
a frame is taken. -/
inductive Stepped (r : Receiver σ) : Step × Receiver σ → Prop
  | unread {source : Source} {cause : FrameError} :
    Frame.read r.source = (.error cause, source) →
    Stepped r (.ended, (r.withSource source).fail (.frame cause))
  | finished {source : Source} :
    Frame.read r.source = (.ok none, source) →
    Stepped r (.ended, { r.withSource source with done := true })
  | framed {source : Source} {body : Bytes} {outcome : Step × Receiver σ} :
    Frame.read r.source = (.ok (some body), source) → Taken (r.withSource source) body outcome →
    Stepped r outcome

theorem stepped_step (r : Receiver σ) : Stepped r r.step := by
  unfold step
  split
  · next read => exact .unread read
  · next read => exact .finished read
  · next body source read => exact .framed read ((r.withSource source).taken_takeBody body)

/-! ## Many frames -/

/-- The records that a frame comes to. -/
def Step.records : Step → List Record
  | .yielded record => [record]
  | .skipped => []
  | .dropped => []
  | .ended => []

/-- Take the bodies of frames one after another, until one of them ends the stream. -/
def feed (r : Receiver σ) : List Bytes → List Record × Receiver σ
  | [] => ([], r)
  | body :: later =>
    if r.done then ([], r)
    else
      let (step, t) := r.takeBody body
      (step.records ++ (t.feed later).1, (t.feed later).2)

theorem feed_of_done {r : Receiver σ} (done : r.done = true) (bodies : List Bytes) :
    r.feed bodies = ([], r) := by
  cases bodies with
  | nil => rfl
  | cons body later => rw [feed, if_pos done]

theorem feed_cons {r : Receiver σ} (running : r.done = false) (body : Bytes)
    (later : List Bytes) :
    r.feed (body :: later)
      = ((r.takeBody body).1.records ++ ((r.takeBody body).2.feed later).1,
          ((r.takeBody body).2.feed later).2) := by
  rw [feed, if_neg (by rw [running]; exact Bool.false_ne_true)]

theorem feed_withSource (r : Receiver σ) (source : Source) (bodies : List Bytes) :
    (r.withSource source).feed bodies
      = ((r.feed bodies).1, (r.feed bodies).2.withSource source) := by
  induction bodies generalizing r with
  | nil => rfl
  | cons body later ih =>
    cases done : r.done with
    | true => rw [feed_of_done (by rwa [done_withSource]), feed_of_done done]
    | false =>
      rw [feed_cons (by rwa [done_withSource]), feed_cons done, takeBody_withSource, ih]

theorem feed_append (r : Receiver σ) (front back : List Bytes) :
    r.feed (front ++ back)
      = ((r.feed front).1 ++ ((r.feed front).2.feed back).1, ((r.feed front).2.feed back).2) := by
  induction front generalizing r with
  | nil => rfl
  | cons body later ih =>
    cases done : r.done with
    | true =>
      rw [feed_of_done done, feed_of_done done, feed_of_done done]
      rfl
    | false => rw [List.cons_append, feed_cons done, feed_cons done, ih, List.append_assoc]

/-- A receiver that has been fed still runs, or was ended by a body. -/
theorem feed_fault {r : Receiver σ} (running : r.done = false) (sound : r.fault = none)
    (bodies : List Bytes) :
    (r.feed bodies).2.done = false ∧ (r.feed bodies).2.fault = none ∨
      (r.feed bodies).2.done = true ∧
        ∃ e, (r.feed bodies).2.fault = some e ∧ e.isFatal = true ∧ ∀ cause, e ≠ .frame cause := by
  induction bodies generalizing r with
  | nil => exact .inl ⟨running, sound⟩
  | cons body later ih =>
    rw [feed_cons running]
    have taken := r.taken_takeBody body
    cases outcome : r.takeBody body with
    | mk step t =>
      rw [outcome] at taken
      cases taken with
      | yielded accepted => exact ih running sound
      | skipped accepted => exact ih running sound
      | dropped refused mild => exact ih running sound
      | ended refused fatal =>
        right
        rw [feed_of_done (by rfl)]
        exact ⟨rfl, _, rfl, fatal, Session.acceptBody_ne_frame refused⟩

theorem takeBody_consumed (r : Receiver σ) (body : Bytes) :
    (r.takeBody body).2.consumed = r.consumed + body.length + Frame.lengthSize := by
  have taken := r.taken_takeBody body
  cases outcome : r.takeBody body with
  | mk step t =>
    rw [outcome] at taken
    cases taken <;> rfl

/-- Every frame is counted, until one ends the stream. -/
theorem feed_consumed (r : Receiver σ) (bodies : List Bytes) :
    r.consumed ≤ (r.feed bodies).2.consumed ∧
      (r.feed bodies).2.consumed ≤ r.consumed + Frame.extent bodies ∧
      ((r.feed bodies).2.done = false →
        (r.feed bodies).2.consumed = r.consumed + Frame.extent bodies) := by
  induction bodies generalizing r with
  | nil => exact ⟨Nat.le_refl _, Nat.le_refl _, fun _ => rfl⟩
  | cons body later ih =>
    cases done : r.done with
    | true =>
      rw [feed_of_done done]
      refine ⟨Nat.le_refl _, Nat.le_add_right _ _, fun running => ?_⟩
      rw [done] at running
      cases running
    | false =>
      rw [feed_cons done, Frame.extent_cons]
      have counted := r.takeBody_consumed body
      obtain ⟨low, high, all⟩ := ih (r.takeBody body).2
      dsimp only
      refine ⟨by omega, by omega, fun running => ?_⟩
      have := all running
      omega

/-- The first frame is counted, whatever becomes of it. -/
theorem feed_cons_consumed {r : Receiver σ} (running : r.done = false) (body : Bytes)
    (later : List Bytes) :
    r.consumed + (body.length + Frame.lengthSize) ≤ (r.feed (body :: later)).2.consumed := by
  rw [feed_cons running]
  have counted := r.takeBody_consumed body
  obtain ⟨low, -, -⟩ := feed_consumed (r.takeBody body).2 later
  dsimp only
  omega

/-! ## Whole streams -/

/-- End a stream that no frame has ended. -/
def finish (r : Receiver σ) (e : Option FrameError) : Receiver σ :=
  if r.done then r
  else
    match e with
    | none => { r with done := true }
    | some e => r.fail (.frame e)

/-- Ending a stream changes nothing but what says that it has ended. -/
theorem finish_eq (r : Receiver σ) (e : Option FrameError) :
    ∃ done fault, r.finish e = { r with done, fault } := by
  unfold finish
  split
  · exact ⟨_, _, rfl⟩
  · cases e with
    | none => exact ⟨_, _, rfl⟩
    | some e => exact ⟨_, _, rfl⟩

theorem finish_withSource (r : Receiver σ) (source : Source) (e : Option FrameError) :
    (r.withSource source).finish e = (r.finish e).withSource source := by
  unfold finish
  rw [done_withSource]
  split
  · rfl
  · cases e <;> rfl

theorem next_of_step {r t : Receiver σ} {step : Step} (running : r.done = false)
    (outcome : r.step = (step, t)) :
    r.next = (match step with
      | .yielded record => (some record, t)
      | .skipped => t.next
      | .dropped => t.next
      | .ended => (none, t)) := by
  rw [next, if_neg (by rw [running]; exact Bool.false_ne_true)]
  split <;> next h => rw [outcome] at h; cases h; rfl

theorem recordsFrom_of_none {r t : Receiver σ} (next : r.next = (none, t))
    (taken : Array Record) : r.recordsFrom taken = (taken.toList, t) := by
  rw [recordsFrom]
  split
  · next h =>
    rw [next] at h
    cases h
    rfl
  · next h =>
    rw [next] at h
    cases h

theorem recordsFrom_of_some {r t : Receiver σ} {record : Record}
    (next : r.next = (some record, t)) (taken : Array Record) :
    r.recordsFrom taken = t.recordsFrom (taken.push record) := by
  rw [recordsFrom]
  split
  · next h =>
    rw [next] at h
    cases h
  · next h =>
    rw [next] at h
    cases h
    rfl

theorem recordsFrom_congr {r t : Receiver σ} (next : r.next = t.next) (taken : Array Record) :
    r.recordsFrom taken = t.recordsFrom taken := by
  cases outcome : t.next with
  | mk record u =>
    rw [outcome] at next
    cases record with
    | none => rw [recordsFrom_of_none next, recordsFrom_of_none outcome]
    | some record => rw [recordsFrom_of_some next, recordsFrom_of_some outcome]

/-- What ends a stream behind its last complete frame. -/
def ending (left : Bytes) (stop : Option String) : Option FrameError :=
  match Frame.front left with
  | .framed _ _ => none
  | .refused e => some e
  | .unfinished short => Frame.stopError stop short

theorem step_of_read {r : Receiver σ} {body : Bytes} {source : Source}
    (read : Frame.read r.source = (.ok (some body), source)) :
    r.step = (r.withSource source).takeBody body := by
  rw [step, read]
  rfl

theorem step_of_framed {r : Receiver σ} {bytes body rest : Bytes} {stop : Option String}
    (supply : r.source.Supplies bytes stop) (here : Frame.front bytes = .framed body rest) :
    ∃ source, r.step = (r.withSource source).takeBody body ∧ source.Supplies rest stop := by
  obtain ⟨source, read, left⟩ := Frame.read_of_framed supply here
  exact ⟨source, step_of_read read, left⟩

theorem step_of_unframed {r : Receiver σ} {bytes : Bytes} {stop : Option String}
    (supply : r.source.Supplies bytes stop) (none : Frame.Unframed bytes)
    (running : r.done = false) :
    ∃ source, r.step = (.ended, (r.finish (ending bytes stop)).withSource source) := by
  have open' : ¬ r.done = true := by
    rw [running]
    exact Bool.false_ne_true
  unfold ending finish
  rw [if_neg open']
  cases here : Frame.front bytes with
  | framed body rest => exact absurd here (none body rest)
  | refused e =>
    obtain ⟨source, read, -⟩ := Frame.read_of_refused supply here
    refine ⟨source, ?_⟩
    rw [step, read]
    rfl
  | unfinished short =>
    obtain ⟨source, read⟩ := Frame.read_of_unfinished supply here
    refine ⟨source, ?_⟩
    rw [step, read]
    dsimp only
    cases Frame.stopError stop short <;> rfl

/-- A receiver is fed the frames at the front of its bytes, and then finished by what follows them,
whatever the schedule of its transport. -/
theorem recordsFrom_of_supplies {r : Receiver σ} {bytes : Bytes} {stop : Option String}
    (supply : r.source.Supplies bytes stop) (running : r.done = false) (taken : Array Record) :
    ∃ source, r.recordsFrom taken
      = (taken.toList ++ (r.feed (Frame.bodies bytes)).1,
          ((r.feed (Frame.bodies bytes)).2.finish
            (ending (Frame.remainder bytes) stop)).withSource source) := by
  rcases Frame.framed_or_unframed bytes with ⟨body, rest, here⟩ | none
  · obtain ⟨source, stepped, left⟩ := step_of_framed supply here
    obtain ⟨bodiesEq, remainderEq⟩ := Frame.split_of_framed here
    have : rest.length < bytes.length := Frame.length_rest_lt here
    rw [bodiesEq, remainderEq, feed_cons running]
    rw [takeBody_withSource] at stepped
    have bodyTaken := r.taken_takeBody body
    cases outcome : r.takeBody body with
    | mk step t =>
      rw [outcome] at stepped bodyTaken
      have nexts := next_of_step running stepped
      have later : t.done = false → ∀ taken : Array Record, ∃ after,
          (t.withSource source).recordsFrom taken
            = (taken.toList ++ (t.feed (Frame.bodies rest)).1,
                ((t.feed (Frame.bodies rest)).2.finish
                  (ending (Frame.remainder rest) stop)).withSource after) := by
        intro running taken
        obtain ⟨after, eq⟩ := recordsFrom_of_supplies (r := t.withSource source) left running taken
        rw [feed_withSource, finish_withSource] at eq
        exact ⟨after, eq⟩
      cases bodyTaken with
      | @yielded record _ accepted =>
        obtain ⟨after, eq⟩ := later running (taken.push record)
        refine ⟨after, ?_⟩
        rw [recordsFrom_of_some nexts, eq, Array.toList_push, List.append_assoc]
        rfl
      | skipped accepted =>
        obtain ⟨after, eq⟩ := later running taken
        exact ⟨after, by rw [recordsFrom_congr nexts, eq]; rfl⟩
      | dropped refused mild =>
        obtain ⟨after, eq⟩ := later running taken
        exact ⟨after, by rw [recordsFrom_congr nexts, eq]; rfl⟩
      | ended refused fatal =>
        refine ⟨source, ?_⟩
        rw [recordsFrom_of_none nexts, feed_of_done (by rfl), Step.records, List.append_nil,
          List.append_nil]
        rfl
  · obtain ⟨source, stepped⟩ := step_of_unframed supply none running
    obtain ⟨bodiesEq, remainderEq⟩ := none.split
    refine ⟨source, ?_⟩
    rw [recordsFrom_of_none (next_of_step running stepped), bodiesEq, remainderEq, feed,
      List.append_nil]
termination_by bytes.length

/-- All records of a stream. -/
theorem records_of_supplies {r : Receiver σ} {bytes : Bytes} {stop : Option String}
    (supply : r.source.Supplies bytes stop) (running : r.done = false) :
    ∃ source, r.records
      = ((r.feed (Frame.bodies bytes)).1,
          ((r.feed (Frame.bodies bytes)).2.finish
            (ending (Frame.remainder bytes) stop)).withSource source) :=
  recordsFrom_of_supplies supply running #[]

end CallTrace.Receiver
