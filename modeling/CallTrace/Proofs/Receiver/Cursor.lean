import CallTrace.Proofs.Frame.Progress
import CallTrace.Proofs.Receiver.Pull

/-!
The count of bytes of a receiver as a cursor in its stream. `Passes` has the frames that were read
completely at each point of a run, and `cursor_counts_frames` says that the cursor stands behind
just these, whatever became of them and whatever the transport does; `EndsAt` says which place of
the stream that is at each kind of end.

Each frame takes four bytes at least. So the loop that looks for the next record ends in as many
turns as the stream has room for frames (`nextWithin_eq_next`), and a run makes no more calls than
its transport has bytes and failures, but one.
-/

namespace CallTrace.Receiver

variable {σ : Type} {r t u : Receiver σ} {s : Source} {frames : List (Bytes × Step)}
  {records : List Record}

/-! ## The frames behind a point of a run -/

/-- The frames that a receiver has read completely on its way to a point of its run, with what each
of them came to. -/
inductive Passes (r : Receiver σ) : List (Bytes × Step) → Receiver σ → Prop
  | start : Passes r [] r
  | frame {frames : List (Bytes × Step)} {t u : Receiver σ} {body : Bytes} {step : Step} :
    Passes r frames t → t.done = false → (Frame.read t.source).1 = .ok (some body) →
    t.step = (step, u) → Passes r (frames ++ [(body, step)]) u
  | stop {frames : List (Bytes × Step)} {t u : Receiver σ} :
    Passes r frames t → t.done = false → (∀ body, (Frame.read t.source).1 ≠ .ok (some body)) →
    t.step = (.ended, u) → Passes r frames u

/-- Every point of a run is behind some frames, which gave all records on the way. -/
theorem Reaches.passes (reached : r.Reaches records t) :
    ∃ frames, r.Passes frames t ∧ records = frames.flatMap fun frame => frame.2.records := by
  induction reached with
  | start => exact ⟨[], .start, rfl⟩
  | @step records t u step _ running stepped ih =>
    rcases ih with ⟨frames, passes, rfl⟩
    have outcome := t.stepped_step
    rw [stepped] at outcome
    cases outcome with
    | unread read =>
      refine ⟨frames, .stop passes running (fun body complete => ?_) stepped, List.append_nil _⟩
      rw [read] at complete
      cases complete
    | finished read =>
      refine ⟨frames, .stop passes running (fun body complete => ?_) stepped, List.append_nil _⟩
      rw [read] at complete
      cases complete
    | @framed source body _ read taken =>
      refine ⟨_, .frame passes running (congrArg Prod.fst read) stepped, ?_⟩
      rw [List.flatMap_append, List.flatMap_singleton]

/-! ## Behind the frames of a transport -/

/-- A receiver that has taken some frames from the front of a transport, and nothing else. -/
structure Behind (s : Source) (frames : List (Bytes × Step)) (t : Receiver σ) : Prop where
  pending : s.pending = (frames.map Prod.fst).flatMap Frame.encode ++ t.source.pending
  consumed : t.consumed = Frame.extent (frames.map Prod.fst)
  total : t.source.total = s.total
  later : s.Later t.source
  budget : t.source.budget ≤ s.budget

/-- The transport has served the frames and no more. -/
theorem Behind.served (behind : Behind s frames t) : t.source.served = s.served + t.consumed := by
  have total := behind.total
  have length := congrArg List.length behind.pending
  rw [List.length_append, Frame.length_flatMap_encode, ← behind.consumed] at length
  unfold Source.total at total
  omega

/-- What is left of the transport begins at the cursor. -/
theorem Behind.rest (behind : Behind s frames t) :
    (frames.map Prod.fst).flatMap Frame.encode = s.pending.take t.consumed ∧
      t.source.pending = s.pending.drop t.consumed := by
  have length := Frame.length_flatMap_encode (frames.map Prod.fst)
  rw [← behind.consumed] at length
  rw [behind.pending, List.take_left' length, List.drop_left' length]
  exact ⟨rfl, rfl⟩

/-- A step moves the transport as the reading of a frame does. -/
theorem source_step (r : Receiver σ) : r.step.2.source = (Frame.read r.source).2 := by
  unfold Receiver.step
  split
  · next read => rw [read]; rfl
  · next read => rw [read]
  · next body source read =>
    rw [read]
    exact source_takeBody (r.withSource source) body

/-- A frame that is read completely is taken. -/
theorem taken_of_complete {body : Bytes} (complete : (Frame.read t.source).1 = .ok (some body)) :
    Taken (t.withSource (Frame.read t.source).2) body t.step := by
  rw [step_of_read (Prod.ext complete rfl)]
  exact taken_takeBody _ body

/-- A receiver that takes one more frame is behind that frame, whatever it comes to. -/
theorem Behind.step {body : Bytes} (behind : Behind s frames t)
    (complete : (Frame.read t.source).1 = .ok (some body)) (step : Step) :
    Behind s (frames ++ [(body, step)]) t.step.2 := by
  have read : Frame.read t.source = (.ok (some body), (Frame.read t.source).2) :=
    Prod.ext complete rfl
  have source := t.source_step
  have counted : t.step.2.consumed = t.consumed + body.length + Frame.lengthSize := by
    rw [step_of_read read, takeBody_consumed]
    rfl
  refine ⟨?_, ?_, ?_, ?_, ?_⟩
  · rw [behind.pending, Frame.eq_encode_append_of_read read, source, List.map_append,
      List.flatMap_append, List.append_assoc, List.map_singleton, List.flatMap_singleton]
  · rw [counted, behind.consumed, List.map_append, Frame.extent_append, List.map_singleton,
      Frame.extent_cons, Nat.add_assoc]
    rfl
  · rw [source]
    exact (Frame.total_read t.source).trans behind.total
  · rw [source]
    exact behind.later.trans (Frame.later_read t.source)
  · rw [source]
    exact Nat.le_trans ((Frame.budget_read t.source).2 body complete) behind.budget

/-- A receiver that still runs is behind the frames that it has passed, and has no fault. -/
theorem Passes.behind (fresh : r.consumed = 0) (sound : r.fault = none)
    (passes : r.Passes frames t) (going : t.done = false) :
    Behind r.source frames t ∧ t.fault = none := by
  induction passes with
  | start => exact ⟨⟨rfl, fresh, rfl, .refl _, Nat.le_refl _⟩, sound⟩
  | @frame frames t u body step _ running complete stepped ih =>
    rcases ih running with ⟨behind, none⟩
    have after := behind.step complete step
    have taken := taken_of_complete complete
    rw [stepped] at after taken
    refine ⟨after, ?_⟩
    cases taken with
    | yielded accepted => exact none
    | skipped accepted => exact none
    | dropped refused mild => exact none
    | ended refused fatal => cases going
  | stop _ running incomplete stepped ih =>
    rw [done_of_step stepped] at going
    cases going

/-! ## The cursor -/

/-- Where the cursor of a receiver is on a transport: behind all frames that were read completely,
and not behind what has been served. -/
structure CursorAt (s : Source) (frames : List (Bytes × Step)) (t : Receiver σ) : Prop where
  consumed : t.consumed = Frame.extent (frames.map Prod.fst)
  front : (frames.map Prod.fst).flatMap Frame.encode = s.pending.take t.consumed
  served : s.served + t.consumed ≤ t.source.served
  total : t.source.total = s.total
  calls : t.source.calls ≤ s.calls + s.remaining + 1

/-- The place of the cursor at each kind of end. -/
inductive EndsAt (s : Source) (frames : List (Bytes × Step)) (t : Receiver σ) : Prop
  /-- Behind all bytes that the transport gave. -/
  | clean : t.fault = none → t.source.served = s.served + t.consumed →
    ((∀ call, s.limit call ≠ some 0) → t.consumed = s.pending.length) → EndsAt s frames t
  /-- Where the frame begins that could not be read. -/
  | unread {before : Source} {cause : FrameError} : t.fault = some (.frame cause) →
    before.served = s.served + t.consumed → before.pending = s.pending.drop t.consumed →
    Frame.read before = (.error cause, t.source) → EndsAt s frames t
  /-- Behind the frame that was refused. -/
  | refused {earlier : List (Bytes × Step)} {body : Bytes} {e : DecodeError} :
    t.fault = some e → e.isFatal = true → (∀ cause, e ≠ .frame cause) →
    frames = earlier ++ [(body, .ended)] →
    (t.session.acceptBody t.table t.store body).1 = .error e →
    t.source.served = s.served + t.consumed → EndsAt s frames t

theorem Behind.cursorAt (behind : Behind s frames t) : CursorAt s frames t := by
  have budget := behind.budget
  unfold Source.budget at budget
  exact ⟨behind.consumed, behind.rest.1, Nat.le_of_eq behind.served.symm, behind.total, by omega⟩

/-- A step without a frame leaves the cursor where it is. -/
theorem Behind.cursorAt_of_stop (behind : Behind s frames t)
    (incomplete : ∀ body, (Frame.read t.source).1 ≠ .ok (some body))
    (stepped : t.step = (.ended, u)) : CursorAt s frames u := by
  have source : u.source = (Frame.read t.source).2 := by rw [← source_step, stepped]
  have outcome := t.stepped_step
  rw [stepped] at outcome
  have consumed : u.consumed = t.consumed := by
    cases outcome with
    | unread read => rfl
    | finished read => rfl
    | framed read taken => exact absurd (congrArg Prod.fst read) (incomplete _)
  have budget := (Frame.budget_read t.source).1
  have served := (Frame.later_read t.source).served
  have total := Frame.total_read t.source
  have before := behind.budget
  have place := behind.served
  rw [← source] at budget served total
  unfold Source.budget at budget before
  refine ⟨consumed.trans behind.consumed, ?_, by omega, total.trans behind.total, by omega⟩
  rw [consumed]
  exact behind.rest.1

/-- The cursor at all points of a run. -/
theorem Passes.cursorAt (fresh : r.consumed = 0) (sound : r.fault = none)
    (passes : r.Passes frames t) : CursorAt r.source frames t := by
  cases passes with
  | start =>
    have behind : Behind r.source [] r := ⟨rfl, fresh, rfl, .refl _, Nat.le_refl _⟩
    exact behind.cursorAt
  | @frame _ t u _ step before running complete stepped =>
    have after := ((before.behind fresh sound running).1.step complete step).cursorAt
    rwa [stepped] at after
  | stop before running incomplete stepped =>
    exact (before.behind fresh sound running).1.cursorAt_of_stop incomplete stepped

/-- A frame that ends the stream is refused, and behind the cursor. -/
theorem Behind.endsAt_of_frame {body : Bytes} {step : Step} (behind : Behind s frames t)
    (running : t.done = false) (complete : (Frame.read t.source).1 = .ok (some body))
    (stepped : t.step = (step, u)) (done : u.done = true) :
    EndsAt s (frames ++ [(body, step)]) u := by
  have after := behind.step complete step
  have taken := taken_of_complete complete
  rw [stepped] at after taken
  have going : ¬t.done = true := by
    rw [running]
    exact Bool.false_ne_true
  cases taken with
  | yielded accepted => exact absurd done going
  | skipped accepted => exact absurd done going
  | dropped refused mild => exact absurd done going
  | ended refused fatal =>
    exact .refused rfl fatal (Session.acceptBody_ne_frame refused) rfl
      (congrArg Prod.fst refused) after.served

/-- Where no frame can be read, the cursor is at the end of the bytes or in front of a frame that is
faulty. -/
theorem Behind.endsAt_of_stop (behind : Behind s frames t) (sound : t.fault = none)
    (incomplete : ∀ body, (Frame.read t.source).1 ≠ .ok (some body))
    (stepped : t.step = (.ended, u)) : EndsAt s frames u := by
  have outcome := t.stepped_step
  rw [stepped] at outcome
  cases outcome with
  | unread read => exact .unread rfl behind.served behind.rest.2 read
  | @finished source read =>
    rcases Frame.pending_of_read_none read with ⟨same, all⟩
    have total := Frame.total_read t.source
    rw [read] at total
    unfold Source.total at total
    dsimp only at total
    rw [same] at total
    refine .clean sound ?_ fun unstalled => ?_
    · have := behind.served
      change source.served = s.served + t.consumed
      omega
    · have empty := all (by rwa [behind.later.limit])
      have length := congrArg List.length behind.pending
      rw [empty, List.append_nil, Frame.length_flatMap_encode, ← behind.consumed] at length
      exact length.symm
  | framed read taken => exact absurd (congrArg Prod.fst read) (incomplete _)

/-- The place of the cursor at the end of a run. -/
theorem Passes.endsAt (fresh : r.consumed = 0) (sound : r.fault = none) (open' : r.done = false)
    (passes : r.Passes frames t) (done : t.done = true) : EndsAt r.source frames t := by
  cases passes with
  | start =>
    rw [done] at open'
    cases open'
  | frame before running complete stepped =>
    exact (before.behind fresh sound running).1.endsAt_of_frame running complete stepped done
  | stop before running incomplete stepped =>
    rcases before.behind fresh sound running with ⟨behind, none⟩
    exact behind.endsAt_of_stop none incomplete stepped

/-! ## The end of every loop -/

/-- The next record, if the loop that looks for it ends within `n` turns. -/
def nextWithin (r : Receiver σ) : Nat → Option (Option Record × Receiver σ)
  | 0 => none
  | n + 1 =>
    if r.done then some (none, r)
    else
      match r.step with
      | (.yielded record, t) => some (some record, t)
      | (.skipped, t) => t.nextWithin n
      | (.dropped, t) => t.nextWithin n
      | (.ended, t) => some (none, t)

/-- A frame that does not end the stream takes four bytes at least. -/
theorem length_pending_step_le {step : Step} (stepped : r.step = (step, t))
    (going : step ≠ .ended) :
    t.source.pending.length + Frame.lengthSize ≤ r.source.pending.length := by
  have source := r.source_step
  have outcome := r.stepped_step
  rw [stepped] at source outcome
  cases outcome with
  | unread read => exact absurd rfl going
  | finished read => exact absurd rfl going
  | framed read taken =>
    have length := congrArg List.length (Frame.eq_encode_append_of_read read)
    rw [List.length_append, Frame.length_encode] at length
    rw [read] at source
    dsimp only at source
    rw [source]
    omega

/-- The loop ends in as many turns as the bytes have room for frames, and one more. -/
theorem nextWithin_eq_next {n : Nat} (enough : r.source.pending.length < 4 * n) :
    r.nextWithin n = some r.next := by
  have size : Frame.lengthSize = 4 := rfl
  induction n generalizing r with
  | zero => omega
  | succ n ih =>
    rw [nextWithin]
    cases done : r.done with
    | true => rw [if_pos rfl, next_of_done done]
    | false =>
      rw [if_neg Bool.false_ne_true]
      have again : ∀ {step : Step} {t : Receiver σ}, r.step = (step, t) → step ≠ .ended →
          t.nextWithin n = some t.next := by
        intro step t stepped going
        have := length_pending_step_le stepped going
        exact ih (by omega)
      cases stepped : r.step with
      | mk step t =>
        rw [next_of_step done stepped]
        cases step with
        | yielded record => rfl
        | skipped => exact again stepped nofun
        | dropped => exact again stepped nofun
        | ended => rfl

theorem length_records_le (frames : List (Bytes × Step)) :
    4 * (frames.flatMap fun frame => frame.2.records).length
      ≤ Frame.extent (frames.map Prod.fst) := by
  have size : Frame.lengthSize = 4 := rfl
  induction frames with
  | nil => exact Nat.le_refl _
  | cons frame later ih =>
    have one : frame.2.records.length ≤ 1 := by
      cases frame.2 with
      | yielded record => exact Nat.le_refl _
      | skipped => exact Nat.zero_le _
      | dropped => exact Nat.zero_le _
      | ended => exact Nat.zero_le _
    rw [List.flatMap_cons, List.length_append, List.map_cons, Frame.extent_cons]
    omega

theorem CursorAt.length_records_le (cursor : CursorAt s frames t) :
    4 * (frames.flatMap fun frame => frame.2.records).length ≤ s.pending.length := by
  have most := Receiver.length_records_le frames
  have served := cursor.served
  have total := cursor.total
  rw [← cursor.consumed] at most
  unfold Source.total at total
  omega

theorem CursorAt.nextWithin (cursor : CursorAt s frames t) {n : Nat}
    (enough : s.pending.length < 4 * n) : t.nextWithin n = some t.next := by
  apply nextWithin_eq_next
  have served := cursor.served
  have total := cursor.total
  unfold Source.total at total
  omega

/-! ## Whole runs -/

/-- On every transport that a handshake may leave, the cursor is the length of all frames that were
read completely, whether they were yielded, skipped or dropped or ended the stream, and the place of
the end follows from its kind. Every frame moves the cursor by four bytes at least, so all loops
end, and there is a record for every four bytes at most. -/
theorem cursor_counts_frames (source : Source) (table : CallTable) (store : BufferStore σ)
    (kept : σ) :
    let r := start source table store kept
    (∀ records t, r.Reaches records t → ∃ frames, r.Passes frames t ∧
      records = frames.flatMap fun frame => frame.2.records) ∧
    (∀ frames t, r.Passes frames t →
      CursorAt source frames t ∧ (t.done = true → EndsAt source frames t) ∧
      (∀ body, t.done = false → (Frame.read t.source).1 = .ok (some body) →
        t.step.2.consumed = t.consumed + (body.length + 4)) ∧
      ∀ n, source.pending.length < 4 * n → t.nextWithin n = some t.next) ∧
    (∀ n, 4 * (r.pull n).1.length ≤ source.pending.length) ∧
    4 * r.records.1.length ≤ source.pending.length := by
  intro r
  have few : ∀ records t, r.Reaches records t → 4 * records.length ≤ source.pending.length := by
    intro records t reached
    rcases reached.passes with ⟨frames, passes, rfl⟩
    exact (passes.cursorAt rfl rfl).length_records_le
  refine ⟨fun records t reached => reached.passes, fun frames t passes => ?_,
    fun n => few _ _ (.pull r n), few _ _ (reaches_records r)⟩
  have cursor := passes.cursorAt rfl rfl
  refine ⟨cursor, passes.endsAt rfl rfl rfl, fun body running complete => ?_,
    fun n enough => cursor.nextWithin enough⟩
  have after := ((passes.behind rfl rfl running).1.step complete .skipped).consumed
  rw [cursor.consumed, after, List.map_append, Frame.extent_append]
  rfl

/-- A note, and all but one byte of another frame. -/
def noteAndPart : Bytes := Frame.encode noteBody ++ [6, 0, 0, 0, 1]

theorem cursor_counts_frames_noteAndPart :
    let slow := Source.ofBytes noteAndPart (some 3) [(2, .interrupted)]
    let r := start slow (.ofLists [] [] [] []) .discard ()
    (∃ frames, r.Passes frames r.records.2 ∧ CursorAt slow frames r.records.2 ∧
      EndsAt slow frames r.records.2) ∧
    r.records.2.consumed = 21 ∧ r.records.2.source.served = 26 ∧
    r.nextWithin 7 = some r.next ∧ 4 * r.records.1.length ≤ 26 := by
  intro slow r
  rcases cursor_counts_frames slow (.ofLists [] [] [] []) .discard () with
    ⟨reached, passed, -, few⟩
  have length : slow.pending.length = 26 := by decide +kernel
  have done : r.records.2.done = true := by decide +kernel
  rcases reached _ _ (reaches_records r) with ⟨frames, passes, -⟩
  rcases passed frames _ passes with ⟨cursor, ended, -⟩
  rcases passed [] r .start with ⟨-, -, -, within⟩
  rw [length] at few
  exact ⟨⟨frames, passes, cursor, ended done⟩, by decide +kernel, by decide +kernel,
    within 7 (by rw [length]; decide), few⟩

end CallTrace.Receiver
