import CallTrace.Proofs.Frame.Handshake
import CallTrace.Proofs.Receiver.Beside

/-!
The schedule of a transport cannot be seen. `pulls_alike_on_any_schedule` compares two transports
over the same bytes, each with its own limits for each call and its own interruptions: the handshake
has the same answer, and after every pull both receivers have yielded the same and are in the same
state, with their transports in the same place.

`position` says which place that is: no byte is taken from a transport that is not part of the line,
of a frame that was read, or of one that could not be.
-/

namespace CallTrace

/-! ## Transports in the same place -/

/-- A reader with an answer that depends on the bytes alone, as does what it leaves of them, and
that passes over none. -/
structure Source.Blind {α : Type} (reader : Source → α × Source) : Prop where
  answer : ∀ bytes, ∃ answer rest, ∀ s : Source, s.ServesAll bytes →
    ∃ t, reader s = (answer, t) ∧ t.ServesAll rest
  total : ∀ s, (reader s).2.total = s.total

theorem Frame.blind_read : Source.Blind Frame.read :=
  ⟨fun _ => ⟨_, _, fun _ => read_of_servesAll⟩, total_read⟩

theorem Handshake.blind_read : Source.Blind Handshake.read := ⟨read_of_servesAll, total_read⟩

/-- Two transports in the same place of the same bytes, whatever their schedules. -/
structure Source.Level (s s' : Source) : Prop where
  serve : ∃ bytes, s.ServesAll bytes ∧ s'.ServesAll bytes
  total : s'.total = s.total

namespace Source.Level

variable {s s' : Source}

theorem served (level : s.Level s') : s'.served = s.served := by
  rcases level with ⟨⟨bytes, serves, serves'⟩, total⟩
  unfold Source.total at total
  rw [serves.pending, serves'.pending] at total
  omega

/-- Transports in the same place are read alike, and are left in the same place. -/
theorem read {α : Type} {reader : Source → α × Source} (level : s.Level s')
    (blind : Blind reader) :
    (reader s').1 = (reader s).1 ∧ (reader s).2.Level (reader s').2 := by
  rcases level with ⟨⟨bytes, serves, serves'⟩, total⟩
  rcases blind.answer bytes with ⟨answer, rest, reads⟩
  rcases reads s serves with ⟨t, read, left⟩
  rcases reads s' serves' with ⟨t', read', left'⟩
  have kept := blind.total s
  have kept' := blind.total s'
  rw [read] at kept
  rw [read'] at kept'
  rw [read, read']
  exact ⟨rfl, ⟨rest, left, left'⟩, kept'.trans (total.trans kept.symm)⟩

end Source.Level

namespace Receiver

variable {σ : Type} {r t : Receiver σ} {records : List Record} {line total : Nat}

/-- Receivers in the same state on transports in the same place. -/
def inPlace (σ : Type) : Pairing σ σ := .equal Source.Level

theorem inPlace_reads : (inPlace σ).Reads := fun _ _ level => level.read Frame.blind_read

/-! ## The place of a receiver -/

/-- Where the transport of a receiver stands, if its frames begin behind `line` of `total` bytes:
behind all frames that were read completely, behind a length as well that no frame has, and at the
end of the bytes if they end within a frame. -/
def position (r : Receiver σ) (line total : Nat) : Nat :=
  match r.fault with
  | some (.frame (.truncated ..)) => total
  | some (.frame _) => line + r.consumed + Frame.lengthSize
  | _ => line + r.consumed

/-- A transport of `total` bytes that ends behind them, in the place where it should be. -/
structure Placed (line total : Nat) (r : Receiver σ) : Prop where
  serves : r.source.ServesAll r.source.pending
  whole : r.source.total = total
  place : r.source.served = r.position line total

theorem position_of_sound (sound : r.fault = none) :
    r.position line total = line + r.consumed := by
  rw [position, sound]

theorem position_of_foreign {e : DecodeError} (fault : r.fault = some e)
    (foreign : ∀ cause, e ≠ .frame cause) : r.position line total = line + r.consumed := by
  rw [position, fault]
  cases e with
  | frame cause => exact absurd rfl (foreign cause)
  | _ => rfl

/-- No body ends a stream with a fault of its transport. -/
theorem fault_takeBody (r : Receiver σ) (body : Bytes) :
    (r.takeBody body).2.fault = r.fault ∨
      ∃ e, (r.takeBody body).2.fault = some e ∧ ∀ cause, e ≠ .frame cause := by
  have taken := r.taken_takeBody body
  cases outcome : r.takeBody body with
  | mk step t =>
    rw [outcome] at taken
    cases taken with
    | yielded accepted => exact .inl rfl
    | skipped accepted => exact .inl rfl
    | dropped refused mild => exact .inl rfl
    | ended refused fatal => exact .inr ⟨_, rfl, Session.acceptBody_ne_frame refused⟩

/-- A body is taken without a look at the transport. -/
theorem Placed.takeBody (sound : r.fault = none) {body : Bytes}
    (serves : r.source.ServesAll r.source.pending) (whole : r.source.total = total)
    (place : r.source.served = line + (r.consumed + body.length + Frame.lengthSize)) :
    Placed line total (r.takeBody body).2 := by
  have behind : (r.takeBody body).2.position line total
      = line + (r.consumed + body.length + Frame.lengthSize) := by
    rcases r.fault_takeBody body with same | ⟨e, fault, foreign⟩
    · rw [position_of_sound (same.trans sound), takeBody_consumed]
    · rw [position_of_foreign fault foreign, takeBody_consumed]
  have same := r.source_takeBody body
  refine ⟨?_, ?_, ?_⟩
  · rwa [same]
  · rwa [same]
  · rw [same, behind, place]

/-- A frame moves the transport behind it, and no further. -/
theorem Placed.step (placed : Placed line total r) (sound : r.fault = none) :
    Placed line total r.step.2 := by
  rcases placed with ⟨serves, rfl, place⟩
  rw [position_of_sound sound] at place
  rcases Frame.read_of_servesAll serves with ⟨t, read, left⟩
  have kept := Frame.total_read r.source
  rw [read] at kept
  have split : t.served + t.pending.length = r.source.served + r.source.pending.length := kept
  have after : t.ServesAll t.pending := ⟨rfl, left.unstalled, left.retryable⟩
  unfold Receiver.step
  rw [read]
  unfold Frame.found at left ⊢
  rw [left.pending] at split
  cases here : Frame.front r.source.pending with
  | framed body rest =>
    rw [here] at split
    change t.served + rest.length = _ at split
    rcases Frame.eq_encode_append_of_front here with ⟨-, eq⟩
    have length := congrArg List.length eq
    rw [List.length_append, Frame.length_encode] at length
    have moved : t.served = line + (r.consumed + body.length + Frame.lengthSize) := by omega
    exact Placed.takeBody (r := r.withSource t) sound after kept moved
  | refused e =>
    rw [here] at split
    change t.served + (r.source.pending.drop Frame.lengthSize).length = _ at split
    rcases Frame.front_refused here with ⟨present, bad⟩
    rw [List.length_drop] at split
    have moved : t.served = line + r.consumed + Frame.lengthSize := by omega
    rcases bad with ⟨-, rfl⟩ | ⟨-, -, rfl⟩
    · exact ⟨after, kept, moved⟩
    · exact ⟨after, kept, moved⟩
  | unfinished short =>
    rw [here] at split
    change t.served + 0 = _ at split
    rcases Frame.front_unfinished here with ⟨rfl, -⟩
    cases missing : Frame.shortfall r.source.pending.length (Frame.announced r.source.pending) with
    | none =>
      -- Nothing is left, so the end is that of the last frame.
      rw [Frame.shortfall_eq_none_iff] at missing
      refine ⟨after, kept, ?_⟩
      change t.served = r.position line _
      rw [position_of_sound sound]
      omega
    | some e =>
      rcases Frame.truncated_of_shortfall missing with ⟨expected, actual, rfl⟩
      exact ⟨after, kept, split⟩

/-- The transport is in its place at all points of a run. -/
theorem Becomes.placed (becomes : r.Becomes t) (sound : r.fault = none)
    (placed : Placed line total r) : Placed line total t := by
  induction becomes with
  | self => exact placed
  | next before running stepped ih =>
    have after := ih.step (before.fault_eq_none sound running)
    rwa [stepped] at after

/-! ## Whole runs -/

/-- How two runs that have come equally far compare, behind a handshake `line` on `total` bytes:
nothing tells them apart, and their transports have given what was needed and no more. -/
structure Alike (line total : Nat) (a b : List Record × Receiver σ) : Prop
    extends Pairing.SameView a b where
  kept : b.2.session.kept = a.2.session.kept
  level : b.2.source.served = a.2.source.served
  place : a.2.source.served = a.2.position line total

theorem Alike.of_beside {a b : List Record × Receiver σ} (placed : Placed line total a.2)
    (records : List.Forall₂ (inPlace σ).records a.1 b.1)
    (beside : (inPlace σ).Beside 0 a.2 b.2) : Alike line total a b where
  toSameView := beside.sameView rfl (by rintro s _ rfl; exact ⟨rfl, rfl⟩) records
  kept := congrArg Session.kept beside.session.symm
  level := beside.source.served
  place := placed.place

/-- No schedule of a transport can be seen: the answer to the handshake is the same, and so is all
that a receiver does pull by pull. No byte is taken that is not part of the line or of a frame that
has been looked at. -/
theorem pulls_alike_on_any_schedule (table : CallTable) (store : BufferStore σ) (kept : σ)
    {first second : Source} {bytes : Bytes} (serves : first.ServesAll bytes)
    (serves' : second.ServesAll bytes) (fresh : first.served = 0) (fresh' : second.served = 0) :
    let r := start (Handshake.read first).2 table store kept
    let r' := start (Handshake.read second).2 table store kept
    let line := r.source.served
    (Handshake.read second).1 = (Handshake.read first).1 ∧
      r'.source.served = line ∧
      (∀ protocol, (Handshake.read first).1 = .ok protocol →
        ∃ text rest, bytes = text ++ Handshake.lineFeed :: rest ∧ Handshake.lineFeed ∉ text ∧
          line = text.length + 1) ∧
      (∀ n, Alike line bytes.length (r.pull n) (r'.pull n)) ∧
      Alike line bytes.length r.records r'.records := by
  intro r r' line
  have total : first.total = bytes.length := by
    rw [Source.total, fresh, serves.pending, Nat.zero_add]
  have total' : second.total = bytes.length := by
    rw [Source.total, fresh', serves'.pending, Nat.zero_add]
  have level : first.Level second := ⟨⟨bytes, serves, serves'⟩, total'.trans total.symm⟩
  rcases level.read Handshake.blind_read with ⟨answer, after⟩
  rcases after.serve with ⟨rest, left, left'⟩
  have beside : (inPlace σ).Beside 0 r r' :=
    ⟨after, rfl, Pairing.equal_accepts Source.Level table store, rfl, rfl, rfl, rfl, rfl⟩
  have placed : Placed line bytes.length r :=
    ⟨⟨rfl, left.unstalled, left.retryable⟩, (Handshake.total_read first).trans total, rfl⟩
  refine ⟨answer, after.served, ?_, fun n => ?_, ?_⟩
  · intro protocol ok
    rcases Handshake.served_of_ok serves fresh ok with ⟨text, rest, eq, free, length⟩
    exact ⟨text, rest, eq, free, length⟩
  · rcases beside.pull inPlace_reads n with ⟨records, pulled⟩
    exact .of_beside ((Reaches.pull r n).becomes.placed rfl placed) records pulled
  · rcases beside.records inPlace_reads with ⟨records, pulled⟩
    exact .of_beside ((reaches_records r).becomes.placed rfl placed) records pulled

/-- A line and the frame of a note. -/
def lineAndNote : Bytes := Handshake.line ++ Frame.encode noteBody

theorem pulls_alike_on_any_schedule_lineAndNote :
    let r := start (Handshake.read (.ofBytes lineAndNote none [])).2 (.ofLists [] [] [] [])
      .discard ()
    let slow := Source.ofBytes lineAndNote (some 1) [(0, .interrupted), (7, .interrupted)]
    let r' := start (Handshake.read slow).2 (.ofLists [] [] [] []) .discard ()
    (Handshake.read slow).1 = .ok .bson ∧ r'.source.served = 5 ∧
      Alike 5 26 (r.pull 1) (r'.pull 1) ∧ Alike 5 26 r.records r'.records := by
  intro r slow r'
  have serves : (Source.ofBytes lineAndNote none []).ServesAll lineAndNote :=
    Source.servesAll_ofBytes lineAndNote nofun nofun
  have serves' : slow.ServesAll lineAndNote :=
    Source.servesAll_ofBytes lineAndNote (by decide) (by decide)
  have line : r.source.served = 5 := by decide +kernel
  have length : lineAndNote.length = 26 := by decide +kernel
  have answer : (Handshake.read (.ofBytes lineAndNote none [])).1 = .ok .bson := by decide +kernel
  rcases pulls_alike_on_any_schedule (.ofLists [] [] [] []) .discard () serves serves' rfl rfl with
    ⟨same, place, -, pulls, records⟩
  rw [answer] at same
  rw [line] at place
  have pulled := pulls 1
  rw [line, length] at pulled records
  exact ⟨same, place, pulled, records⟩

end Receiver

end CallTrace
