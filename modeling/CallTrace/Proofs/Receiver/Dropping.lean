import CallTrace.Proofs.Receiver.Cut

/-!
A frame that is refused leaves no trace but its bytes. `LeftBy` is what such a frame leaves of a
receiver, and `withoutDropped` a stream without the frames that are dropped in the course of it.
`refused_frames_leave_no_trace` says that the run on the shorter stream is the same run, and has
counted fewer bytes by just those of the frames that are gone.
-/

namespace CallTrace.Receiver

variable {σ : Type} {r t : Receiver σ} {body : Bytes} {e : DecodeError}

/-! ## One frame -/

/-- What a receiver becomes frame by frame, until it is done. -/
inductive Becomes (r : Receiver σ) : Receiver σ → Prop
  | self : Becomes r r
  | next {t u : Receiver σ} {step : Step} :
    Becomes r t → t.done = false → t.step = (step, u) → Becomes r u

/-- A receiver that still runs has no fault. -/
theorem Becomes.fault_eq_none (sound : r.fault = none) (becomes : r.Becomes t)
    (running : t.done = false) : t.fault = none := by
  induction becomes with
  | self => exact sound
  | @next t u step _ before stepped ih =>
    have sound := ih before
    have outcome := t.stepped_step
    rw [stepped] at outcome
    cases outcome with
    | unread read => cases running
    | finished read => cases running
    | framed read taken =>
      cases taken with
      | yielded accepted => exact sound
      | skipped accepted => exact sound
      | dropped refused mild => exact sound
      | ended refused fatal => cases running

/-- What an error makes of the frame. -/
def Step.ofError (e : DecodeError) : Step := if e.isFatal then .ended else .dropped

/-- What a frame with the given body leaves of a receiver if it is refused with the given error. -/
structure LeftBy (r : Receiver σ) (body : Bytes) (e : DecodeError) (t : Receiver σ) : Prop where
  schema : t.session.schema = r.session.schema
  pid : t.session.pid = r.session.pid
  kept : t.session.kept = r.session.kept
  consumed : t.consumed = r.consumed + (body.length + Frame.lengthSize)
  done : t.done = e.isFatal
  fault : t.fault = if e.isFatal then some e else none

/-- A body that is refused changes nothing but the count of bytes, and ends the stream if its error
is fatal. -/
theorem takeBody_of_refused (running : r.done = false) (sound : r.fault = none)
    (refused : (r.session.acceptBody r.table r.store body).1 = .error e) :
    (r.takeBody body).1 = .ofError e ∧ (r.takeBody body).2.source = r.source ∧
      r.LeftBy body e (r.takeBody body).2 := by
  have taken := r.taken_takeBody body
  cases outcome : r.takeBody body with
  | mk step t =>
    rw [outcome] at taken
    cases taken with
    | yielded accepted =>
      rw [accepted] at refused
      cases refused
    | skipped accepted =>
      rw [accepted] at refused
      cases refused
    | dropped failed mild =>
      rw [failed] at refused
      cases refused
      refine ⟨by rw [Step.ofError, mild]; rfl, rfl, rfl, rfl, rfl, Nat.add_assoc .., ?_, ?_⟩
      · rw [mild]
        exact running
      · rw [mild]
        exact sound
    | ended failed fatal =>
      rw [failed] at refused
      cases refused
      refine ⟨by rw [Step.ofError, fatal]; rfl, rfl, rfl, rfl, rfl, Nat.add_assoc .., ?_, ?_⟩
      · rw [fatal]
        rfl
      · rw [fatal]
        rfl

theorem step_of_refused {source : Source} (running : r.done = false) (sound : r.fault = none)
    (read : Frame.read r.source = (.ok (some body), source))
    (refused : (r.session.acceptBody r.table r.store body).1 = .error e) :
    r.step.1 = .ofError e ∧ r.step.2.source = source ∧ r.LeftBy body e r.step.2 := by
  rw [step_of_read read]
  rcases takeBody_of_refused (r := r.withSource source) running sound refused with
    ⟨outcome, left, schema, pid, kept, consumed, done, fault⟩
  exact ⟨outcome, left, schema, pid, kept, consumed, done, fault⟩

/-! ## Frames that are dropped -/

/-- Whether a frame is dropped. -/
def Step.isDropped : Step → Bool
  | .dropped => true
  | _ => false

/-- The bodies that a receiver does not drop in the course of some, and those that it drops. -/
def sift (r : Receiver σ) : List Bytes → List Bytes × List Bytes
  | [] => ([], [])
  | body :: later =>
    if r.done then (body :: later, [])
    else
      let taken := r.takeBody body
      let (others, dropped) := taken.2.sift later
      if taken.1.isDropped then (others, body :: dropped) else (body :: others, dropped)

/-- The stream without the frames that the receiver drops in the course of it. -/
def withoutDropped (r : Receiver σ) (bytes : Bytes) : Bytes :=
  (r.sift (Frame.bodies bytes)).1.flatMap Frame.encode ++ Frame.remainder bytes

/-- The bodies of the frames that the receiver drops in the course of a stream. -/
def droppedBodies (r : Receiver σ) (bytes : Bytes) : List Bytes := (r.sift (Frame.bodies bytes)).2

theorem sift_of_done (done : r.done = true) (bodies : List Bytes) :
    r.sift bodies = (bodies, []) := by
  cases bodies with
  | nil => rfl
  | cons body later => rw [sift, if_pos done]

theorem sift_cons_of_dropped (running : r.done = false)
    (dropped : (r.takeBody body).1.isDropped = true) (later : List Bytes) :
    r.sift (body :: later) = (((r.takeBody body).2.sift later).1,
      body :: ((r.takeBody body).2.sift later).2) := by
  rw [sift, if_neg (by rw [running]; exact Bool.false_ne_true)]
  dsimp only
  rw [if_pos dropped]

theorem sift_cons_of_not_dropped (running : r.done = false)
    (taken : (r.takeBody body).1.isDropped = false) (later : List Bytes) :
    r.sift (body :: later) = (body :: ((r.takeBody body).2.sift later).1,
      ((r.takeBody body).2.sift later).2) := by
  rw [sift, if_neg (by rw [running]; exact Bool.false_ne_true)]
  dsimp only
  rw [if_neg (by rw [taken]; exact Bool.false_ne_true)]

theorem sift_sublist (r : Receiver σ) (bodies : List Bytes) :
    (r.sift bodies).1.Sublist bodies := by
  induction bodies generalizing r with
  | nil => exact .slnil
  | cons body later ih =>
    cases done : r.done with
    | true =>
      have all : (r.sift (body :: later)).1 = body :: later :=
        congrArg Prod.fst (sift_of_done done _)
      exact all.symm ▸ .refl _
    | false =>
      cases dropped : (r.takeBody body).1.isDropped with
      | true =>
        rw [sift_cons_of_dropped done dropped]
        exact .cons body (ih _)
      | false =>
        rw [sift_cons_of_not_dropped done dropped]
        exact .cons_cons body (ih _)

/-! ## Runs without the frames that are dropped -/

/-- The receiver with another count of bytes, and with other errors of frames that were dropped. -/
def recounted (r : Receiver σ) (consumed : Nat) (dropped : Array DecodeError) : Receiver σ :=
  { r with consumed, dropped }

/-- A body that is dropped changes the counts alone. -/
theorem takeBody_of_dropped (dropped : (r.takeBody body).1.isDropped = true) :
    ∃ e, (r.takeBody body).2
      = r.recounted (r.consumed + (body.length + Frame.lengthSize)) (r.dropped.push e) := by
  have taken := r.taken_takeBody body
  cases outcome : r.takeBody body with
  | mk step t =>
    rw [outcome] at taken dropped
    cases taken with
    | yielded accepted => cases dropped
    | skipped accepted => cases dropped
    | @dropped e refused mild =>
      refine ⟨e, ?_⟩
      rw [← Nat.add_assoc]
      rfl
    | ended refused fatal => cases dropped

/-- The counts have no part in what a body does. -/
theorem takeBody_recounted (taken : (r.takeBody body).1.isDropped = false) (consumed : Nat)
    (dropped : Array DecodeError) :
    (r.recounted consumed dropped).takeBody body = ((r.takeBody body).1,
      (r.takeBody body).2.recounted (consumed + (body.length + Frame.lengthSize)) dropped) := by
  rw [← Nat.add_assoc]
  unfold takeBody recounted at *
  dsimp only at *
  cases outcome : r.session.acceptBody r.table r.store body with
  | mk result session =>
    rw [outcome] at taken
    cases result with
    | ok record => cases record <;> rfl
    | error e =>
      dsimp only at *
      cases fatal : e.isFatal with
      | true => rfl
      | false =>
        rw [fatal] at taken
        cases taken

/-- Only a body that is dropped is reported. -/
theorem takeBody_dropped (taken : (r.takeBody body).1.isDropped = false) :
    (r.takeBody body).2.dropped = r.dropped :=
  congrArg (fun outcome => outcome.2.dropped) (takeBody_recounted taken r.consumed r.dropped)

/-- A receiver that is fed what another does not drop yields the same records, and ends in the same
state but for its counts. -/
theorem feed_sift (r : Receiver σ) (bodies : List Bytes) {consumed fewer : Nat}
    (count : r.consumed = consumed + fewer) (dropped : Array DecodeError) :
    ∃ last, (r.recounted consumed dropped).feed (r.sift bodies).1
        = ((r.feed bodies).1, (r.feed bodies).2.recounted last dropped) ∧
      (r.feed bodies).2.consumed = last + (fewer + Frame.extent (r.sift bodies).2) ∧
      (r.feed bodies).2.dropped.size = r.dropped.size + (r.sift bodies).2.length := by
  induction bodies generalizing r consumed fewer with
  | nil => exact ⟨consumed, rfl, count, rfl⟩
  | cons body later ih =>
    cases done : r.done with
    | true =>
      rw [sift_of_done done, feed_of_done done, feed_of_done (by exact done)]
      exact ⟨consumed, rfl, count, rfl⟩
    | false =>
      have running : (r.recounted consumed dropped).done = false := done
      rw [feed_cons done]
      cases drops : (r.takeBody body).1.isDropped with
      | true =>
        rw [sift_cons_of_dropped done drops]
        rcases takeBody_of_dropped drops with ⟨e, after⟩
        have silent : (r.takeBody body).1.records = [] := by
          cases step : (r.takeBody body).1 with
          | dropped => rfl
          | _ => rw [step] at drops; cases drops
        have count : (r.takeBody body).2.consumed
            = consumed + (fewer + (body.length + Frame.lengthSize)) := by
          rw [takeBody_consumed, count]
          omega
        rcases ih (r.takeBody body).2 count with ⟨last, fed, counted, reported⟩
        have same : (r.takeBody body).2.recounted consumed dropped
            = r.recounted consumed dropped := by
          rw [after]
          rfl
        rw [same] at fed
        refine ⟨last, ?_, ?_, ?_⟩
        · rw [fed, silent, List.nil_append]
        · rw [counted, Frame.extent_cons, Nat.add_assoc fewer]
        · rw [reported, after, List.length_cons, recounted, Array.size_push]
          omega
      | false =>
        rw [sift_cons_of_not_dropped done drops, feed_cons running, takeBody_recounted drops]
        have count : (r.takeBody body).2.consumed
            = consumed + (body.length + Frame.lengthSize) + fewer := by
          rw [takeBody_consumed, count]
          omega
        rcases ih (r.takeBody body).2 count with ⟨last, fed, counted, reported⟩
        refine ⟨last, ?_, counted, ?_⟩
        · rw [fed]
        · rw [reported, takeBody_dropped drops]

/-! ## Streams without the frames that are dropped -/

/-- How a run compares with the run on the stream without the frames that it drops. -/
structure Outlives (dropped : List Bytes) (whole rest : List Record × Receiver σ) : Prop where
  records : rest.1 = whole.1
  schema : rest.2.session.schema = whole.2.session.schema
  pid : rest.2.session.pid = whole.2.session.pid
  kept : rest.2.session.kept = whole.2.session.kept
  fault : rest.2.fault = whole.2.fault
  consumed : whole.2.consumed = rest.2.consumed + Frame.extent dropped
  reported : whole.2.dropped.size = dropped.length
  unreported : rest.2.dropped = #[]

theorem split_withoutDropped (r : Receiver σ) (bytes : Bytes) :
    Frame.bodies (r.withoutDropped bytes) = (r.sift (Frame.bodies bytes)).1 ∧
      Frame.remainder (r.withoutDropped bytes) = Frame.remainder bytes := by
  rcases Frame.eq_frames_append_remainder bytes with ⟨-, unframed, fits⟩
  have short : ∀ body ∈ (r.sift (Frame.bodies bytes)).1,
      body.length + Frame.lengthSize ≤ Frame.maxLength := by
    intro body mem
    exact fits body ((r.sift_sublist (Frame.bodies bytes)).subset mem)
  rcases Frame.split_frames_append short (Frame.remainder bytes) with ⟨bodies, remainder⟩
  rw [unframed.split.1, List.append_nil] at bodies
  rw [unframed.split.2] at remainder
  exact ⟨bodies, remainder⟩

theorem finish_recounted (r : Receiver σ) (consumed : Nat) (dropped : Array DecodeError)
    (e : Option FrameError) :
    (r.recounted consumed dropped).finish e = (r.finish e).recounted consumed dropped := by
  have done : (r.recounted consumed dropped).done = r.done := rfl
  unfold finish
  rw [done]
  split
  · rfl
  · cases e <;> rfl

theorem dropped_finish (e : Option FrameError) : (r.finish e).dropped = r.dropped := by
  rcases r.finish_eq e with ⟨done, fault, eq⟩
  rw [eq]

/-- The run on the stream without the frames that are dropped is the same but for its counts. -/
theorem outcome_withoutDropped (none : r.dropped = #[]) (bytes : Bytes) (stop : Option String) :
    ∃ last, r.outcome (r.withoutDropped bytes) stop
        = ((r.outcome bytes stop).1, (r.outcome bytes stop).2.recounted last #[]) ∧
      (r.outcome bytes stop).2.consumed = last + Frame.extent (r.droppedBodies bytes) ∧
      (r.outcome bytes stop).2.dropped.size = (r.droppedBodies bytes).length := by
  rcases split_withoutDropped r bytes with ⟨bodies, remainder⟩
  rcases r.feed_sift (Frame.bodies bytes) (Nat.add_zero r.consumed).symm #[] with
    ⟨last, fed, counted, reported⟩
  have same : r.recounted r.consumed #[] = r := by
    rw [← none]
    rfl
  rw [same] at fed
  refine ⟨last, ?_, ?_, ?_⟩
  · rw [outcome, bodies, remainder, fed, finish_recounted, outcome]
  · rw [outcome, consumed_finish, counted, Nat.zero_add, droppedBodies]
  · rw [outcome, dropped_finish, reported, none, droppedBodies]
    exact Nat.zero_add _

/-- A frame that is refused leaves no trace but its bytes: no state that a receiver comes to is
changed by one, and the run on a stream without those that are dropped is the same run. -/
theorem refused_frames_leave_no_trace (table : CallTable) (store : BufferStore σ) (kept : σ) :
    (∀ (source rest : Source) (r : Receiver σ) (body : Bytes) (e : DecodeError),
      (start source table store kept).Becomes r → r.done = false →
      Frame.read r.source = (.ok (some body), rest) →
      (r.session.acceptBody r.table r.store body).1 = .error e →
      r.step.1 = .ofError e ∧ r.step.2.source = rest ∧ r.LeftBy body e r.step.2) ∧
    ∀ (bytes : Bytes) (stop : Option String) (source shorter : Source),
      source.Supplies bytes stop →
      shorter.Supplies ((start source table store kept).withoutDropped bytes) stop →
      Outlives ((start source table store kept).droppedBodies bytes)
        (start source table store kept).records (start shorter table store kept).records := by
  constructor
  · intro source rest r body e becomes running read refused
    exact step_of_refused running (becomes.fault_eq_none rfl running) read refused
  · intro bytes stop source shorter supply shorterSupply
    have whole : SameRun (start source table store kept).records
        ((start source table store kept).outcome bytes stop) := records_sameRun supply
    have rest : SameRun (start shorter table store kept).records
        ((start source table store kept).outcome
          ((start source table store kept).withoutDropped bytes) stop) :=
      records_sameRun shorterSupply
    rcases outcome_withoutDropped (r := start source table store kept) rfl bytes stop with
      ⟨last, same, counted, reported⟩
    rw [same] at rest
    obtain ⟨wholeRecords, wholeEnd⟩ := whole
    obtain ⟨restRecords, restEnd⟩ := rest
    exact {
      records := restRecords.trans wholeRecords.symm
      schema := by rw [wholeEnd, restEnd]; rfl
      pid := by rw [wholeEnd, restEnd]; rfl
      kept := by rw [wholeEnd, restEnd]; rfl
      fault := by rw [wholeEnd, restEnd]; rfl
      consumed := by rw [wholeEnd, restEnd]; exact counted
      reported := by rw [wholeEnd]; exact reported
      unreported := by rw [restEnd]; rfl }

/-- A note between data of an index that is not described, and a body that is no document. -/
def noteAmongRefused : Bytes := [[0], noteBody, [0], [7]].flatMap Frame.encode

theorem refused_frames_leave_no_trace_noteAmongRefused :
    let r := start (.ofBytes noteAmongRefused none []) (.ofLists [] [] [] []) .discard ()
    (r.step.1 = .ofError (.unknownIndex (-1)) ∧ r.LeftBy [0] (.unknownIndex (-1)) r.step.2) ∧
      Outlives [[0], [0]] r.records
        (start (.ofBytes ([noteBody, [7]].flatMap Frame.encode) (some 3) [(2, .interrupted)])
          (.ofLists [] [] [] []) .discard ()).records := by
  intro r
  rcases refused_frames_leave_no_trace (.ofLists [] [] [] []) .discard () with ⟨frame, stream⟩
  have supply : r.source.Supplies noteAmongRefused none := Source.supplies_ofBytes _
  have shorter : r.withoutDropped noteAmongRefused = [noteBody, [7]].flatMap Frame.encode := by
    decide +kernel
  have dropped : r.droppedBodies noteAmongRefused = [[0], [0]] := by decide +kernel
  constructor
  · have here : Frame.front noteAmongRefused
        = .framed [0] ([noteBody, [0], [7]].flatMap Frame.encode) :=
      Frame.front_encode_append (by decide) _
    rcases Frame.read_of_framed supply here with ⟨rest, read, -⟩
    rcases frame r.source rest r [0] (.unknownIndex (-1)) .self rfl read rfl with ⟨step, -, left⟩
    exact ⟨step, left⟩
  · rw [← dropped]
    refine stream noteAmongRefused none r.source _ supply ?_
    change Source.Supplies _ (r.withoutDropped noteAmongRefused) none
    rw [shorter]
    exact .ending (Source.servesAll_ofBytes _ (by decide) (by decide))

end CallTrace.Receiver
