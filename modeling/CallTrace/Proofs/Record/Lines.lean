import CallTrace.Proofs.Json.Unbroken
import CallTrace.Proofs.Receiver.Requests
import CallTrace.Proofs.Stream.Pieces
import CallTrace.Proofs.Text.Octets
import CallTrace.Record.Lines

/-!
Records as lines, and what a transport has of them after a drain. No text of a record can end its
line: the line is the compact text of the record, which has no character below the blank, and one
line feed (`Record.Lined`).

`drained_lines` says that a transport to which a receiver is drained has accepted a front of the
lines of the records pulled, that a drain counts its records just if it has accepted them all, and
that these are then one piece between line feeds for each record.
-/

namespace CallTrace

/-! ## One line -/

namespace Record

/-- The octets of a record's line, the line feed included. -/
def octets (record : Record) : Bytes := Utf8.encode record.line

/-- The octets of a record's line in front of its line feed. -/
def chunk (record : Record) : Bytes := Utf8.encode record.toJson.compact

theorem octets_eq (record : Record) : record.octets = record.chunk ++ [0x0A] := by
  have ended : record.line = record.toJson.compact ++ "\n" := by
    rw [← String.toList_inj, line, lineChars_eq, Json.compact_eq, String.toList_append,
      String.toList_ofList, String.toList_ofList]
    rfl
  rw [octets, chunk, ended, Utf8.encode_append]
  rfl

/-- The only character of a line that is below the blank is the line feed at its end, and so with
its octets. -/
structure Lined (record : Record) : Prop where
  text : ∃ front, record.line.toList = front ++ ['\n'] ∧ ∀ c ∈ front, 0x20 ≤ c.toNat
  octets : ∃ front, record.octets = front ++ [0x0A] ∧ ∀ b ∈ front, 0x20 ≤ b.toNat

theorem unbroken_chunk (record : Record) : ∀ b ∈ record.chunk, 0x20 ≤ b.toNat := by
  intro b mem
  refine Nat.le_of_not_lt fun low => ?_
  -- Such an octet would be a character of the text.
  rcases Utf8.exists_mem_of_mem_encode mem (Nat.lt_trans low (by decide)) with ⟨c, here, same⟩
  rw [Json.compact_eq, String.toList_ofList] at here
  have high := record.toJson.unbroken_chars c here
  omega

theorem lined (record : Record) : record.Lined where
  text := by
    refine ⟨record.toJson.chars, ?_, record.toJson.unbroken_chars⟩
    rw [line, String.toList_ofList, lineChars_eq]
  octets := ⟨record.chunk, record.octets_eq, record.unbroken_chunk⟩

/-! ## Many lines -/

/-- Lists that are each ended by a mark have the mark between them, and nothing behind the last. -/
theorem intercalate_ended {α : Type} (mark : α) (chunks : List (List α)) :
    [mark].intercalate (chunks ++ [[]]) = chunks.flatMap (· ++ [mark]) := by
  induction chunks with
  | nil => rfl
  | cons chunk later ih =>
    rw [List.flatMap_cons, ← ih, List.cons_append, List.intercalate_cons_of_ne_nil (by simp)]

/-- Between the line feeds of the lines of some records, there is one piece for each record, and
behind the last there is nothing. -/
theorem splitOn_octets (records : List Record) :
    (records.flatMap octets).splitOn 0x0A = records.map chunk ++ [[]] := by
  have lines : records.flatMap octets = [0x0A].intercalate (records.map chunk ++ [[]]) := by
    rw [intercalate_ended, List.flatMap_map]
    exact congrArg (records.flatMap ·) (funext octets_eq)
  have free : ∀ part ∈ records.map chunk ++ [[]], (0x0A : UInt8) ∉ part := by
    intro part mem feed
    rcases List.mem_append.1 mem with mem | mem
    · rcases List.mem_map.1 mem with ⟨record, -, rfl⟩
      exact absurd (record.unbroken_chunk _ feed) (by decide)
    · rw [List.mem_singleton.1 mem] at feed
      cases feed
  rw [lines, List.splitOn_intercalate _ free (by simp)]

end Record

/-! ## Sinks of lines -/

/-- Whether a sink pushes the line of each record through a transport, in some pieces, up to the
first that is not accepted as a whole. -/
structure RecordSink.PushesLines (sink : RecordSink Sink) (pieces : Record → List Bytes) :
    Prop where
  whole : ∀ record, (pieces record).flatten = record.octets
  accept : ∀ w record, sink.accept w record
    = ((w.writePieces (pieces record)).1 == .complete, (w.writePieces (pieces record)).2)

namespace RecordSink

theorem pushesLines_lines : lines.PushesLines fun record => [record.octets] where
  whole _ := List.append_nil _
  accept w record := by
    rw [Sink.writePieces_singleton]
    rfl

variable {sink : RecordSink Sink} {pieces : Record → List Bytes} {w v : Sink} {record : Record}
  {took : Bool}

theorem PushesLines.gains (pushes : sink.PushesLines pieces)
    (accepts : sink.accept w record = (took, v)) : w.Gains v record.octets (took = true) := by
  have gains := w.gains_writePieces (pieces record)
  rw [pushes.accept] at accepts
  cases accepts
  rw [pushes.whole] at gains
  exact gains.iff beq_iff_eq.symm

theorem PushesLines.gains_takes (pushes : sink.PushesLines pieces) {taken : List Record}
    (takes : sink.Takes w taken v) : w.Gains v (taken.flatMap Record.octets) True := by
  induction takes with
  | nil => exact .nil _
  | cons accepts _ ih => exact (pushes.gains accepts).append rfl ih

theorem PushesLines.takesAll (pushes : sink.PushesLines pieces) (takes : w.TakesAll)
    (accepts : sink.accept w record = (took, v)) : took = true ∧ v.TakesAll := by
  rcases takes.writePieces (pieces record) with ⟨complete, after⟩
  rw [pushes.accept, complete] at accepts
  cases accepts
  exact ⟨rfl, after⟩

theorem PushesLines.takesAll_takes (pushes : sink.PushesLines pieces) {taken : List Record}
    (takes : w.TakesAll) (taking : sink.Takes w taken v) : v.TakesAll := by
  induction taking with
  | nil => exact takes
  | cons accepts _ ih => exact ih (pushes.takesAll takes accepts).2

end RecordSink

namespace Receiver

variable {σ : Type} {sink : RecordSink Sink} {pieces : Record → List Bytes}

theorem Drains.gains {r : Receiver σ} {w : Sink} {given : List Record}
    {outcome : Drained × Sink × Receiver σ} (pushes : sink.PushesLines pieces)
    (drains : Drains sink r w 0 given outcome) :
    w.Gains outcome.2.1 (given.flatMap Record.octets) (outcome.1 = .all given.length) := by
  cases drains with
  | all takes pulled done =>
    rw [Nat.zero_add]
    exact (pushes.gains_takes takes).iff (by simp)
  | refused takes refuses pulled =>
    rw [List.flatMap_append, List.flatMap_singleton]
    exact ((pushes.gains_takes takes).append trivial (pushes.gains refuses)).iff (by simp)

theorem Drains.count_eq {τ : Type} {sink : RecordSink τ} {r : Receiver σ} {state : τ}
    {count n : Nat} {given : List Record} {outcome : Drained × τ × Receiver σ}
    (drains : Drains sink r state count given outcome) (all : outcome.1 = .all n) :
    count + given.length = n := by
  cases drains with
  | all takes pulled done => exact Drained.all.inj all
  | refused takes refuses pulled => cases all

/-- A transport that takes all bytes refuses no record. -/
theorem Drains.all_of_takesAll {r : Receiver σ} {w : Sink} {given : List Record}
    {outcome : Drained × Sink × Receiver σ} (pushes : sink.PushesLines pieces)
    (takes : w.TakesAll) (drains : Drains sink r w 0 given outcome) :
    outcome.1 = .all given.length := by
  cases drains with
  | all _ _ _ => exact congrArg Drained.all (Nat.zero_add _)
  | refused taking refuses _ =>
    cases (pushes.takesAll (pushes.takesAll_takes takes taking) refuses).1

/-- Whatever the transport, and wherever the lines are cut, a drain leaves a front of the lines of
the records that it pulled, in their order. It counts `n` records just if it pulled so many and all
their lines are there; then it has pulled all that there are, and between the line feeds there is
one piece for each of them. A transport that takes all bytes gets so far. Nothing in a record breaks
its line. `RecordSink.lines` is one of these sinks (`pushesLines_lines`). -/
theorem drained_lines (pushes : sink.PushesLines pieces) (r : Receiver σ) (w : Sink) :
    let given := handedTo sink r w
    let outcome := r.drain sink w
    given <+: r.records.1 ∧
    (∃ front, outcome.2.1.accepted.toList = w.accepted.toList ++ front ∧
      front <+: given.flatMap Record.octets ∧
      ∀ n, (outcome.1 = .all n ↔ given.length = n ∧ front = given.flatMap Record.octets) ∧
        (outcome.1 = .all n → given = r.records.1 ∧
          front.splitOn 0x0A = given.map Record.chunk ++ [[]])) ∧
    (w.TakesAll → outcome.1 = .all r.records.1.length) ∧
    ∀ record : Record, record.Lined := by
  intro given outcome
  have drains : Drains sink r w 0 given outcome := drains_drain sink r w
  rcases drains.gains pushes with ⟨front, accepted, isPrefix, all⟩
  rcases drains.exists_pull with ⟨m, pulled, -, finished⟩
  have counted {n : Nat} (drained : outcome.1 = .all n) : given.length = n := by
    rw [← drains.count_eq drained, Nat.zero_add]
  have complete {n : Nat} (drained : outcome.1 = .all n) :
      front = given.flatMap Record.octets :=
    all.1 (by rw [drained, counted drained])
  -- A drain is some pulls, and so its records are the first of the run.
  have every {n : Nat} (drained : outcome.1 = .all n) : given = r.records.1 := by
    rw [records_eq_pull (by rw [pulled]; exact finished n drained), pulled]
  refine ⟨?_, ⟨front, accepted, isPrefix, fun n => ⟨⟨?_, ?_⟩, fun drained => ⟨every drained, ?_⟩⟩⟩,
    fun takes => ?_, Record.lined⟩
  · have first := r.pull_isPrefix_records m
    rwa [pulled] at first
  · exact fun drained => ⟨counted drained, complete drained⟩
  · rintro ⟨rfl, whole⟩
    exact all.2 whole
  · rw [complete drained, Record.splitOn_octets]
  · have drained : outcome.1 = .all given.length := drains.all_of_takesAll pushes takes
    rw [← every drained]
    exact drained

/-- Two notes; the text of one has a line feed, and that of the other another control character. -/
def brokenNotes : Bytes :=
  [Message.debug 7 .zero "a\nb", .debug 7 .zero "\x07"].flatMap fun note => note.toDocument.print

/-- Two transports for both notes: one is interrupted and accepts all, and the other fails within
the second line. -/
theorem drained_lines_of_brokenNotes :
    let r := start (.ofBytes brokenNotes (some 3) [(9, .interrupted)]) (.ofLists [] [] [] [])
      .discard ()
    let patient := r.drain .lines (.scripted (some 5) none [(7, .interrupted)] none)
    let full := r.drain .lines (.scripted (some 5) none [(60, .fault "full")] none)
    patient.1 = .all 2 ∧
      patient.2.1.accepted.toList.splitOn 0x0A = r.records.1.map Record.chunk ++ [[]] ∧
      full.1 = .refused ∧ full.2.1.accepted.size = 60 ∧
      ∃ given, given <+: r.records.1 ∧
        full.2.1.accepted.toList <+: given.flatMap Record.octets := by
  intro r patient full
  have two : r.records.1.length = 2 := by decide +kernel
  have refused : full.1 = .refused ∧ full.2.1.accepted.size = 60 := by decide +kernel
  have takes : (Sink.scripted (some 5) none [(7, .interrupted)] none).TakesAll :=
    Sink.takesAll_scripted (by decide) (by decide)
  rcases drained_lines RecordSink.pushesLines_lines r (.scripted (some 5) none [(7, .interrupted)]
    none) with ⟨-, ⟨front, accepted, -, drained⟩, counts, -⟩
  rcases drained_lines RecordSink.pushesLines_lines r (.scripted (some 5) none [(60, .fault "full")]
    none) with ⟨first, ⟨front', accepted', isPrefix, -⟩, -, -⟩
  have same : patient.2.1.accepted.toList = front := accepted
  have same' : full.2.1.accepted.toList = front' := accepted'
  have all : patient.1 = .all r.records.1.length := counts takes
  rcases (drained _).2 all with ⟨every, split⟩
  rw [every] at split
  rw [two] at all
  refine ⟨all, ?_, refused.1, refused.2, _, first, ?_⟩
  · rw [same]
    exact split
  · rw [same']
    exact isPrefix

end Receiver

end CallTrace
