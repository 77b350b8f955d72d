import CallTrace.Proofs.Receiver.Feed

/-!
What a cut or failing transport takes from a stream. `records_of_cut` compares a receiver on some
bytes with one that gets the first `k` of them and then the end, and with one whose transport fails
for good in that place.

Both lose the tail and nothing else: `feed` over the frames within the cut is what all three
receivers have in common, and the remainder of the cut decides how the shorter two end.
-/

namespace CallTrace

namespace Frame

variable {bytes : Bytes} {k : Nat}

/-- Whether a frame ends behind the first `k` bytes, or none has begun. -/
def IsBoundary (bytes : Bytes) (k : Nat) : Prop :=
  ∃ front, front <+: bodies bytes ∧ k = extent front

/-- The frames within a cut are frames of the whole. -/
theorem bodies_take_prefix (within : k ≤ bytes.length) :
    bodies (bytes.take k) <+: bodies bytes := by
  obtain ⟨back, eq, -, -⟩ := eq_frames_append_of_take within
  obtain ⟨-, -, fits⟩ := eq_frames_append_remainder (bytes.take k)
  obtain ⟨bodiesEq, -⟩ := split_frames_append fits back
  rw [← eq] at bodiesEq
  exact ⟨bodies back, bodiesEq.symm⟩

/-- A cut is a boundary exactly if the frames within it fill it. -/
theorem isBoundary_iff (within : k ≤ bytes.length) :
    IsBoundary bytes k ↔ extent (bodies (bytes.take k)) = k := by
  constructor
  · rintro ⟨front, isPrefix, rfl⟩
    obtain ⟨eq, -, fits⟩ := eq_frames_append_remainder bytes
    obtain ⟨back, split⟩ := isPrefix
    have cut : bytes.take (extent front) = front.flatMap encode := by
      rw [eq, ← split, List.flatMap_append, List.append_assoc]
      exact List.take_left' (length_flatMap_encode front)
    have frontFits : ∀ body ∈ front, body.length + lengthSize ≤ maxLength := by
      intro body mem
      exact fits body (split ▸ List.mem_append_left back mem)
    obtain ⟨bodiesEq, -⟩ := split_frames_append frontFits []
    rw [List.append_nil] at bodiesEq
    have none : bodies [] = [] := (Unframed.split (by intro body rest here; cases here)).1
    rw [cut, bodiesEq, none, List.append_nil]
  · intro filled
    exact ⟨_, bodies_take_prefix within, filled.symm⟩

/-- What the end of the stream makes of bytes: nothing is missing behind a frame. -/
def missing (bytes : Bytes) : Option FrameError :=
  shortfall (remainder bytes).length (announced (remainder bytes))

theorem shortfall_eq_none_iff {present length : Nat} :
    shortfall present length = none ↔ present = 0 := by
  constructor
  · intro complete
    unfold shortfall at complete
    split at complete
    · assumption
    · split at complete <;> cases complete
  · rintro rfl
    exact shortfall_zero length

end Frame

namespace Receiver

variable {σ : Type} {r : Receiver σ} {bytes : Bytes} {stop : Option String}

/-! ## Runs without a transport -/

/-- A receiver that ends with an error of its transport, or cleanly. -/
def endedBy (r : Receiver σ) (e : Option FrameError) : Receiver σ :=
  { r with done := true, fault := e.map .frame }

theorem finish_of_running (running : r.done = false) (sound : r.fault = none)
    (e : Option FrameError) : r.finish e = r.endedBy e := by
  unfold finish endedBy
  rw [if_neg (by rw [running]; exact Bool.false_ne_true)]
  cases e with
  | none => rw [Option.map_none, ← sound]
  | some e => rfl

/-- The records of some bytes and the receiver behind them, if the bytes end with `stop`. -/
def outcome (r : Receiver σ) (bytes : Bytes) (stop : Option String) : List Record × Receiver σ :=
  ((r.feed (Frame.bodies bytes)).1,
    (r.feed (Frame.bodies bytes)).2.finish (ending (Frame.remainder bytes) stop))

/-- Whether two runs are the same but for what is left of their transports. -/
def SameRun (a b : List Record × Receiver σ) : Prop :=
  a.1 = b.1 ∧ a.2 = b.2.withSource a.2.source

theorem SameRun.symm {a b : List Record × Receiver σ} (same : SameRun a b) : SameRun b a := by
  obtain ⟨records, receiver⟩ := same
  refine ⟨records.symm, ?_⟩
  rw [receiver]
  rfl

theorem SameRun.trans {a b c : List Record × Receiver σ} (left : SameRun a b)
    (right : SameRun b c) : SameRun a c := by
  obtain ⟨records, receiver⟩ := left
  obtain ⟨records', receiver'⟩ := right
  refine ⟨records.trans records', ?_⟩
  rw [receiver, receiver']
  rfl

/-- A run does not depend on the schedule of its transport. -/
theorem records_sameRun {s base : Source} {table : CallTable} {store : BufferStore σ} {kept : σ}
    (supply : s.Supplies bytes stop) :
    SameRun (start s table store kept).records
      ((start base table store kept).outcome bytes stop) := by
  obtain ⟨source, records⟩ := records_of_supplies (r := start s table store kept) supply rfl
  have moved : start s table store kept = (start base table store kept).withSource s := rfl
  rw [moved, feed_withSource, finish_withSource] at records
  rw [moved, records]
  exact ⟨rfl, rfl⟩

theorem outcome_frames_append {front : List Bytes}
    (fits : ∀ body ∈ front, body.length + Frame.lengthSize ≤ Frame.maxLength) (rest : Bytes) :
    r.outcome (front.flatMap Frame.encode ++ rest) stop
      = ((r.feed front).1 ++ ((r.feed front).2.outcome rest stop).1,
          ((r.feed front).2.outcome rest stop).2) := by
  obtain ⟨bodies, remainder⟩ := Frame.split_frames_append fits rest
  rw [outcome, bodies, remainder, feed_append, outcome]

theorem outcome_of_done (done : r.done = true) : r.outcome bytes stop = ([], r) := by
  rw [outcome, feed_of_done done]
  unfold finish
  rw [if_pos done]

theorem outcome_of_unframed (running : r.done = false) (sound : r.fault = none)
    (none : Frame.Unframed bytes) : r.outcome bytes stop = ([], r.endedBy (ending bytes stop)) := by
  obtain ⟨bodies, remainder⟩ := none.split
  rw [outcome, bodies, remainder, feed, finish_of_running running sound]

/-! ## Cuts -/

/-- A cut behind a length that no frame has changes nothing. -/
theorem outcome_of_refused {e : FrameError} (running : r.done = false) (sound : r.fault = none)
    (here : Frame.front bytes = .refused e) : r.outcome bytes stop = ([], r.fail (.frame e)) := by
  have unframed : Frame.Unframed bytes := by
    intro body rest framed
    rw [here] at framed
    cases framed
  rw [outcome_of_unframed running sound unframed, ending, here]
  rfl

/-- A cut within a frame leaves no trace but the error. -/
theorem outcome_of_unfinished {short : Option FrameError} (running : r.done = false)
    (sound : r.fault = none) (here : Frame.front bytes = .unfinished short) :
    r.outcome bytes stop = ([], r.endedBy (Frame.stopError stop short)) := by
  have unframed : Frame.Unframed bytes := by
    intro body rest framed
    rw [here] at framed
    cases framed
  rw [outcome_of_unframed running sound unframed, ending, here]

/-- Whether the first `k` bytes hold what ended a stream: a length that no frame has, or a frame
that was refused for good. -/
def SettledWithin (r : Receiver σ) (k : Nat) : Prop :=
  match r.fault with
  | none => False
  | some (.frame (.truncated ..)) => False
  | some (.frame _) => r.consumed + Frame.lengthSize ≤ k
  | some _ => r.consumed ≤ k

/-- What ended a stream behind the cut is not within it. -/
theorem not_settledWithin_of_lt {k : Nat} (beyond : k < r.consumed) : ¬ r.SettledWithin k := by
  unfold SettledWithin
  split
  · exact id
  · exact id
  · omega
  · omega

/-- A clean end and an unfinished frame are not settled by any part of the bytes. -/
theorem not_settledWithin_endedBy_shortfall (present length k : Nat) :
    ¬ (r.endedBy (Frame.shortfall present length)).SettledWithin k := by
  unfold Frame.shortfall
  split
  · exact id
  · split <;> exact id

theorem consumed_finish (e : Option FrameError) : (r.finish e).consumed = r.consumed := by
  rcases r.finish_eq e with ⟨done, fault, eq⟩
  rw [eq]

/-- A run is not settled within a cut that leaves less than a frame. -/
theorem not_settledWithin_of_unfinished {k : Nat} {short : Option FrameError}
    (running : r.done = false) (sound : r.fault = none)
    (here : Frame.front (bytes.take k) = .unfinished short) :
    ¬ (r.outcome bytes none).2.SettledWithin (r.consumed + k) := by
  cases whole : Frame.front bytes with
  | framed body rest =>
    -- The frame ends behind the cut, so the whole counts more bytes than the cut has.
    rcases Frame.eq_encode_append_of_front whole with ⟨fits, eq⟩
    have beyond : k < body.length + Frame.lengthSize := by
      rcases Nat.lt_or_ge k (body.length + Frame.lengthSize) with beyond | inside
      · exact beyond
      · have framed : bytes.take k
            = Frame.encode body ++ rest.take (k - (Frame.encode body).length) := by
          rw [eq, List.take_append, List.take_of_length_le (by rwa [Frame.length_encode])]
        rw [framed, Frame.front_encode_append fits] at here
        cases here
    rcases Frame.split_of_framed whole with ⟨bodies, -⟩
    have counted := feed_cons_consumed running body (Frame.bodies rest)
    apply not_settledWithin_of_lt
    rw [outcome, consumed_finish, bodies]
    omega
  | refused e =>
    -- The length is cut itself.
    have few : k < Frame.lengthSize := by
      rcases Nat.lt_or_ge k Frame.lengthSize with few | enough
      · exact few
      · have refused := Frame.front_take_refused whole enough
        rw [here] at refused
        cases refused
    have beyond : ¬ r.consumed + Frame.lengthSize ≤ r.consumed + k := by omega
    rw [outcome_of_refused running sound whole]
    rcases Frame.front_refused whole with ⟨-, ⟨-, rfl⟩ | ⟨-, -, rfl⟩⟩
    · exact beyond
    · exact beyond
  | unfinished more =>
    obtain ⟨rfl, -⟩ := Frame.front_unfinished whole
    rw [outcome_of_unfinished running sound whole, Frame.stopError]
    exact not_settledWithin_endedBy_shortfall _ _ _

/-- A cut in front of which no frame ends settles the run, or leaves nothing but an error. -/
theorem outcome_take_of_unframed {k : Nat} (running : r.done = false) (sound : r.fault = none)
    (within : k ≤ bytes.length) (unframed : Frame.Unframed (bytes.take k)) :
    (r.outcome bytes none).2.SettledWithin (r.consumed + k) ∧
        (∀ stop, r.outcome (bytes.take k) stop = r.outcome bytes none) ∨
      ¬ (r.outcome bytes none).2.SettledWithin (r.consumed + k) ∧
        (∀ stop, r.outcome (bytes.take k) stop
          = ([], r.endedBy
              (Frame.stopError stop (Frame.shortfall k (Frame.announced (bytes.take k)))))) ∧
        (k < Frame.lengthSize ∨ k < Frame.announced (bytes.take k)) := by
  have length : (bytes.take k).length = k := by
    rw [List.length_take]
    omega
  cases here : Frame.front (bytes.take k) with
  | framed body rest => exact absurd here (unframed body rest)
  | refused e =>
    left
    rcases Frame.front_refused_of_take here with ⟨whole, enough⟩
    rw [outcome_of_refused running sound whole]
    refine ⟨?_, fun stop => outcome_of_refused running sound here⟩
    have settled : r.consumed + Frame.lengthSize ≤ r.consumed + k := by omega
    rcases Frame.front_refused whole with ⟨-, ⟨-, rfl⟩ | ⟨-, -, rfl⟩⟩
    · exact settled
    · exact settled
  | unfinished short =>
    right
    have unsettled := not_settledWithin_of_unfinished running sound here
    obtain ⟨rfl, inside⟩ := Frame.front_unfinished here
    rw [length] at here inside
    refine ⟨unsettled, fun stop => outcome_of_unfinished running sound here, ?_⟩
    rcases inside with few | ⟨-, more, -⟩
    · exact .inl few
    · exact .inr more

/-- What a cut leaves of a run that is not settled within it. -/
structure LosesTail (r : Receiver σ) (bytes : Bytes) (k : Nat) : Prop where
  outcome : ∀ stop, r.outcome (bytes.take k) stop
    = ((r.feed (Frame.bodies (bytes.take k))).1,
        (r.feed (Frame.bodies (bytes.take k))).2.endedBy
          (Frame.stopError stop (Frame.missing (bytes.take k))))
  records : (r.feed (Frame.bodies (bytes.take k))).1 <+: (r.outcome bytes none).1
  counted : (r.feed (Frame.bodies (bytes.take k))).2.consumed
    = Frame.extent (Frame.bodies (bytes.take k))
  inside : (Frame.remainder (bytes.take k)).length < Frame.lengthSize ∨
    (Frame.remainder (bytes.take k)).length < Frame.announced (Frame.remainder (bytes.take k))

/-- A cut changes nothing, or it loses the tail. -/
theorem outcome_take {k : Nat} (running : r.done = false) (sound : r.fault = none)
    (fresh : r.consumed = 0) (within : k ≤ bytes.length) :
    (r.outcome bytes none).2.SettledWithin k ∧
        (∀ stop, r.outcome (bytes.take k) stop = r.outcome bytes none) ∨
      ¬ (r.outcome bytes none).2.SettledWithin k ∧ r.LosesTail bytes k := by
  obtain ⟨back, eq, le, remainder⟩ := Frame.eq_frames_append_of_take within
  obtain ⟨cutEq, unframed, fits⟩ := Frame.eq_frames_append_remainder (bytes.take k)
  have present : k - Frame.extent (Frame.bodies (bytes.take k)) ≤ back.length := by
    have := congrArg List.length eq
    rw [List.length_append, Frame.length_flatMap_encode] at this
    omega
  have length : (Frame.remainder (bytes.take k)).length
      = k - Frame.extent (Frame.bodies (bytes.take k)) := by
    rw [remainder, List.length_take]
    omega
  -- Both runs are the run over the frames within the cut, and what comes of it behind them.
  have whole : r.outcome bytes none
      = ((r.feed (Frame.bodies (bytes.take k))).1
            ++ ((r.feed (Frame.bodies (bytes.take k))).2.outcome back none).1,
          ((r.feed (Frame.bodies (bytes.take k))).2.outcome back none).2) := by
    rw [← outcome_frames_append fits, ← eq]
  have cut : ∀ stop, r.outcome (bytes.take k) stop
      = ((r.feed (Frame.bodies (bytes.take k))).1
            ++ ((r.feed (Frame.bodies (bytes.take k))).2.outcome
                  (Frame.remainder (bytes.take k)) stop).1,
          ((r.feed (Frame.bodies (bytes.take k))).2.outcome
            (Frame.remainder (bytes.take k)) stop).2) := by
    intro stop
    rw [← outcome_frames_append fits, ← cutEq]
  obtain ⟨-, high, all⟩ := r.feed_consumed (Frame.bodies (bytes.take k))
  rcases feed_fault running sound (Frame.bodies (bytes.take k)) with
    ⟨running', sound'⟩ | ⟨done, e, fault, -, foreign⟩
  · have counted := all running'
    rw [fresh, Nat.zero_add] at counted
    rw [remainder] at unframed
    have settled := outcome_take_of_unframed running' sound' present unframed
    rw [counted, Nat.add_sub_cancel' le, ← remainder, ← length] at settled
    rw [whole]
    rcases settled with ⟨settled, same⟩ | ⟨unsettled, ended, inside⟩
    · left
      refine ⟨settled, fun stop => ?_⟩
      rw [cut, same]
    · right
      refine ⟨unsettled, ⟨fun stop => ?_, ?_, counted, inside⟩⟩
      · rw [cut, ended, List.append_nil, Frame.missing]
      · rw [whole]
        exact List.prefix_append _ _
  · left
    rw [whole, outcome_of_done done]
    refine ⟨?_, fun stop => by rw [cut, outcome_of_done done]⟩
    unfold SettledWithin
    rw [fault]
    have : (r.feed (Frame.bodies (bytes.take k))).2.consumed ≤ k := by omega
    cases e with
    | frame cause => exact absurd rfl (foreign cause)
    | _ => exact this

/-- A cut of which nothing is missing is a boundary. -/
theorem missing_take_eq_none_iff {k : Nat} (within : k ≤ bytes.length) :
    Frame.missing (bytes.take k) = none ↔ Frame.IsBoundary bytes k := by
  obtain ⟨back, eq, le, remainder⟩ := Frame.eq_frames_append_of_take within
  have total := congrArg List.length eq
  rw [List.length_append, Frame.length_flatMap_encode] at total
  rw [Frame.missing, Frame.shortfall_eq_none_iff, Frame.isBoundary_iff within, remainder,
    List.length_take]
  constructor <;> omega

/-- How a receiver on some bytes compares with one on the first `k` of them, and with one whose
transport fails with `text` behind these. `fed` is what comes of the frames within the cut. -/
structure CutCompares (bytes : Bytes) (k : Nat) (text : String)
    (fed whole cut broken : List Record × Receiver σ) : Prop where
  settled : whole.2.SettledWithin k → SameRun cut whole ∧ SameRun broken whole
  cutRun : ¬ whole.2.SettledWithin k →
    SameRun cut (fed.1, fed.2.endedBy (Frame.missing (bytes.take k)))
  brokenRun : ¬ whole.2.SettledWithin k → SameRun broken (fed.1, fed.2.endedBy (some (.io text)))
  records : ¬ whole.2.SettledWithin k → fed.1 <+: whole.1
  counted : ¬ whole.2.SettledWithin k →
    fed.2.consumed = Frame.extent (Frame.bodies (bytes.take k))
  inside : ¬ whole.2.SettledWithin k →
    (Frame.remainder (bytes.take k)).length < Frame.lengthSize ∨
      (Frame.remainder (bytes.take k)).length < Frame.announced (Frame.remainder (bytes.take k))
  clean : ¬ whole.2.SettledWithin k → (cut.2.fault = none ↔ Frame.IsBoundary bytes k)

/-- A cut or failing transport loses only the tail. -/
theorem records_of_cut {whole cut broken : Source} {bytes : Bytes} {k : Nat} {text : String}
    (within : k ≤ bytes.length) (wholeSupply : whole.ServesAll bytes)
    (cutSupply : cut.ServesAll (bytes.take k)) (brokenSupply : broken.FaultsAfter bytes k text)
    (table : CallTable) (store : BufferStore σ) (kept : σ) :
    CutCompares bytes k text
      ((start whole table store kept).feed (Frame.bodies (bytes.take k)))
      (start whole table store kept).records (start cut table store kept).records
      (start broken table store kept).records := by
  have onWhole : SameRun (start whole table store kept).records
      ((start whole table store kept).outcome bytes none) := records_sameRun (.ending wholeSupply)
  have onCut : SameRun (start cut table store kept).records
      ((start whole table store kept).outcome (bytes.take k) none) :=
    records_sameRun (.ending cutSupply)
  have onBroken : SameRun (start broken table store kept).records
      ((start whole table store kept).outcome (bytes.take k) (some text)) :=
    records_sameRun (.faulting brokenSupply)
  have settles : (start whole table store kept).records.2.SettledWithin k
      ↔ ((start whole table store kept).outcome bytes none).2.SettledWithin k := by
    rw [onWhole.2]
    exact Iff.rfl
  rcases outcome_take (r := start whole table store kept) rfl rfl rfl within with
    ⟨settled, same⟩ | ⟨unsettled, tail⟩
  · have settled' := settles.2 settled
    rw [same] at onCut onBroken
    refine ⟨fun _ => ⟨onCut.trans onWhole.symm, onBroken.trans onWhole.symm⟩, ?_, ?_, ?_, ?_, ?_,
      ?_⟩
    all_goals
      intro unsettled
      exact absurd settled' unsettled
  · rw [tail.outcome] at onCut onBroken
    refine ⟨fun settled => absurd (settles.1 settled) unsettled, fun _ => onCut, fun _ => onBroken,
      fun _ => ?_, fun _ => tail.counted, fun _ => tail.inside, fun _ => ?_⟩
    · rw [onWhole.1]
      exact tail.records
    · rw [← missing_take_eq_none_iff within, onCut.2]
      exact Option.map_eq_none_iff

/-- The body of a note without a text. -/
def noteBody : Bytes :=
  [0x02, 0x74, 0x79, 0x70, 0x65, 0, 6, 0, 0, 0, 0x64, 0x65, 0x62, 0x75, 0x67, 0, 0]

/-- A note, and two octets of the length of another frame. -/
def noteAndLength : Bytes := Frame.encode noteBody ++ [7, 0]

/-- The second frame is cut within its length, and the note in front of it is kept. -/
theorem records_of_cut_within_length :
    let table : CallTable := .ofLists [] [] [] []
    let whole := start (.ofBytes noteAndLength none []) table .discard ()
    let cut := start (.ofBytes (noteAndLength.take 22) (some 1) [(3, .interrupted)]) table
      .discard ()
    let broken := start (.ofBytes noteAndLength (some 4) [(22, .fault "connection reset")]) table
      .discard ()
    CutCompares noteAndLength 22 "connection reset"
        (whole.feed (Frame.bodies (noteAndLength.take 22))) whole.records cut.records
        broken.records ∧
      cut.records.1.length = 1 ∧ broken.records.1.length = 1 ∧
      cut.records.2.fault = some (.frame (.truncated 4 1)) ∧
      broken.records.2.fault = some (.frame (.io "connection reset")) := by
  intro table whole cut broken
  have compares : CutCompares noteAndLength 22 "connection reset"
      (whole.feed (Frame.bodies (noteAndLength.take 22))) whole.records cut.records
      broken.records := by
    apply records_of_cut
    · decide
    · exact Source.servesAll_ofBytes noteAndLength nofun nofun
    · exact Source.servesAll_ofBytes _ (by decide) (by decide)
    · exact Source.faultsAfter_ofBytes "connection reset" (by decide) (by decide)
  refine ⟨compares, ?_, ?_, ?_, ?_⟩
  all_goals decide +kernel

end Receiver

end CallTrace
