import CallTrace.Proofs.Delivery.Step
import CallTrace.Proofs.Frame.Handshake
import CallTrace.Proofs.Stream.Intake

/-!
Whole runs. As long as every operation of a sender succeeds and every frame is short enough for its
reader, a receiver yields the expected records and nothing else, whatever the schedules of the two
transports (`Delivers`).
-/

namespace CallTrace

variable {σ : Type} {table : CallTable}

/-! ## Messages of a run -/

/-- Both sides go through a run of requests together. -/
theorem Synchronised.run {before : List Request} {s : Sender} {session : Session σ}
    (sync : Synchronised table before s session) {requests : List Request}
    (regular : Regular (before ++ requests))
    (ok : ∀ result ∈ (s.run requests).1, result = .ok ()) (other : CallTable)
    (store : BufferStore σ) :
    ∃ last, session.Takes other store ((s.log requests).map Attempt.message)
        (expectedFrom table before requests) last ∧
      last.kept = expectedKept store session.kept requests ∧
      ∀ a ∈ s.log requests, a.Succeeded ∧ a.message.Plain := by
  induction requests generalizing before s session with
  | nil =>
    refine ⟨session, .none, rfl, ?_⟩
    intro a mem
    cases mem
  | cons request later ih =>
    rw [List.append_cons] at regular
    rcases sync.step regular.front other store with ⟨mid, served⟩
    have sent : (s.perform request).1 = (sendAll s.sink (s.prepare request).1).1 := by
      rw [Sender.perform_eq]
    have first : (s.perform request).1 = .ok () := ok _ List.mem_cons_self
    rcases attempts_outcome s.sink (s.prepare request).1 with ⟨-, all, each⟩ | ⟨failed, -⟩
    · have after : Synchronised table (before ++ [request]) (s.perform request).2 mid := by
        rw [Sender.perform_eq]
        exact ⟨served.after.table_eq, served.after.sender, served.after.receiver,
          served.after.described⟩
      rcases ih after regular (fun result mem => ok result (List.mem_cons_of_mem _ mem))
        with ⟨last, takes, kept, written⟩
      refine ⟨last, ?_, ?_, ?_⟩
      · rw [Sender.log, List.map_append, all]
        exact served.takes.append takes
      · rw [kept, served.kept]
        rfl
      · intro a mem
        rw [Sender.log] at mem
        rcases List.mem_append.1 mem with mem | mem
        · refine ⟨each a mem, served.plain a.message ?_⟩
          rw [← all]
          exact List.mem_map_of_mem mem
        · exact written a mem
    · rw [sent] at first
      exact absurd first failed

/-! ## Bytes of a run -/

/-- The frames of messages that were written are read back as these messages. -/
theorem read_of_succeeded {log : List Attempt}
    (written : ∀ a ∈ log, a.Succeeded ∧ a.message.Plain)
    (fits : ∀ a ∈ log, a.body?.all Frame.readable = true) :
    ∃ bodies : List Bytes, log.flatMap Attempt.front = bodies.flatMap Frame.encode ∧
      (∀ body ∈ bodies, body.length + Frame.lengthSize ≤ Frame.maxLength) ∧
      bodies.map Message.decode?
        = (log.map Attempt.message).map fun message => some message.received := by
  induction log with
  | nil =>
    refine ⟨[], rfl, ?_, rfl⟩
    intro body mem
    cases mem
  | cons a later ih =>
    rcases ih (fun b mem => written b (List.mem_cons_of_mem a mem))
      (fun b mem => fits b (List.mem_cons_of_mem a mem)) with ⟨bodies, bytes, short, read⟩
    rcases written a List.mem_cons_self with ⟨succeeded, plain⟩
    rcases succeeded.written with ⟨body, here, front⟩
    have fit := fits a List.mem_cons_self
    rw [here, Option.all_some, Frame.readable, decide_eq_true_iff] at fit
    have small : body.length + Frame.lengthSize < 0x80000000 :=
      Nat.lt_of_le_of_lt fit (by decide)
    have decoded := Message.decode?_of_encode? (Attempt.body?_eq_some_iff.1 here).1 plain small
    refine ⟨body :: bodies, ?_, ?_, ?_⟩
    · rw [List.flatMap_cons, front, bytes, List.flatMap_cons]
    · intro other mem
      rcases List.mem_cons.1 mem with rfl | mem
      · exact fit
      · exact short other mem
    · rw [List.map_cons, List.map_cons, List.map_cons, decoded, read]

/-! ## Delivery -/

/-- Whether a receiver has come to its end with the records of some requests, their dumps, and all
bytes, and nothing went wrong. -/
structure Delivered (table : CallTable) (requests : List Request) (store : BufferStore σ) (kept : σ)
    (bytes : Bytes) (outcome : List Record × Receiver σ) : Prop where
  records : outcome.1 = expected table requests
  done : outcome.2.done = true
  fault : outcome.2.fault = none
  dropped : outcome.2.dropped = #[]
  kept : outcome.2.session.kept = expectedKept store kept requests
  consumed : outcome.2.consumed = bytes.length

/-- A receiver on the frames of a run, whatever it knows of calls and wherever it keeps dumps. -/
theorem delivered_of_takes {requests : List Request} {bodies : List Bytes} {messages : List Message}
    {source : Source} {other : CallTable} {store : BufferStore σ} {kept : σ} {last : Session σ}
    (takes : (Session.initial kept).Takes other store messages (expected table requests) last)
    (keeps : last.kept = expectedKept store kept requests)
    (short : ∀ body ∈ bodies, body.length + Frame.lengthSize ≤ Frame.maxLength)
    (read : bodies.map Message.decode? = messages.map fun message => some message.received)
    (supply : source.Supplies (bodies.flatMap Frame.encode) none) :
    Delivered table requests store kept (bodies.flatMap Frame.encode)
      (Receiver.start source other store kept).records := by
  have bare : Frame.Unframed [] := by
    intro body rest here
    cases here
  rcases Frame.split_frames_append short [] with ⟨found, left⟩
  rw [List.append_nil, bare.split.1, List.append_nil] at found
  rw [List.append_nil, bare.split.2] at left
  have fed := Receiver.feed_of_takes (r := Receiver.start source other store kept) rfl takes read
  rcases Receiver.records_of_supplies (r := Receiver.start source other store kept) supply rfl
    with ⟨rest, records⟩
  rw [found, left, fed] at records
  rw [records]
  refine ⟨rfl, rfl, rfl, rfl, keeps, ?_⟩
  rw [Frame.length_flatMap_encode]
  exact Nat.zero_add _

/-- Whether a reader of some bytes finds the handshake line, and a receiver behind it all records of
some requests, on every transport that serves the bytes. -/
def Delivers (table : CallTable) (requests : List Request) (bytes : Bytes) : Prop :=
  ∀ source : Source, source.ServesAll (Handshake.line ++ bytes) →
    ∃ rest, Handshake.read source = (.ok .bson, rest) ∧
      ∀ {σ : Type} (other : CallTable) (store : BufferStore σ) (kept : σ),
        Delivered table requests store kept bytes (Receiver.start rest other store kept).records

/-- A sender on a transport, behind the handshake line. -/
def Sender.connect (sink : Sink) (table : CallTable) (clock : Clock) : Sender :=
  .start (handshake sink).2 table clock

/-- If every operation succeeds and every frame is short enough for its reader, everything is
delivered. -/
theorem delivers_of_ok {sink : Sink} (reliable : sink.TakesAll) (table : CallTable) (clock : Clock)
    {requests : List Request} (regular : Regular requests)
    (ok : ∀ result ∈ ((Sender.connect sink table clock).run requests).1, result = .ok ())
    (fits : ∀ a ∈ (Sender.connect sink table clock).log requests,
      a.body?.all Frame.readable = true) :
    (Sender.handshake sink).1 = .ok () ∧ ∃ bytes,
      ((Sender.connect sink table clock).run requests).2.sink.accepted.toList
        = sink.accepted.toList ++ (Handshake.line ++ bytes) ∧
      Delivers table requests bytes := by
  rcases reliable.send Handshake.line with ⟨opened, sent, -, accepted⟩
  have shaken : Sender.handshake sink = (.ok (), opened) := sent
  have connected : Sender.connect sink table clock = .start opened table clock := by
    rw [Sender.connect, shaken]
  rw [connected] at ok fits ⊢
  rw [shaken]
  rcases (Synchronised.start opened table clock ()).run regular ok table .discard
    with ⟨-, -, -, written⟩
  rcases read_of_succeeded written fits with ⟨bodies, bytes, short, read⟩
  refine ⟨rfl, bodies.flatMap Frame.encode, ?_, ?_⟩
  · rw [Sender.accepted_run, bytes]
    change opened.accepted.toList ++ _ = _
    rw [accepted, List.append_assoc]
  · intro source serves
    have supply : source.Supplies
        ([0x42, 0x53, 0x4F, 0x4E] ++ Handshake.lineFeed :: bodies.flatMap Frame.encode) none :=
      .ending serves
    rcases Handshake.read_of_line supply (by decide) (by decide) with ⟨rest, protocol, left⟩
    have bson : Handshake.protocolOf [0x42, 0x53, 0x4F, 0x4E] = .bson := by decide +kernel
    rw [bson] at protocol
    refine ⟨rest, protocol, ?_⟩
    intro σ other store kept
    rcases (Synchronised.start opened table clock kept).run regular ok other store
      with ⟨last, takes, keeps, -⟩
    exact delivered_of_takes takes keeps short read left

/-- A transport that takes three bytes at a time and is interrupted twice. -/
def chopped : Sink := .scripted (some 3) none [(2, .interrupted), (40, .interrupted)] none

theorem takesAll_chopped : chopped.TakesAll := Sink.takesAll_scripted (by decide) (by decide)

/-- One use of each operation, and two calls of one index whose arguments differ. -/
def everyOperation : List Request :=
  [⟨⟨.zero, 0⟩, .announce 42 1 (some "C:\\a.exe")⟩,
    ⟨⟨.zero, 0⟩, .emit 7 "NtClose" true (.int 0) [("retval", .text "x"), ("filename", .bool true)]⟩,
    ⟨⟨.zero, 0⟩, .setPid 43⟩,
    ⟨⟨.zero, 0⟩, .emit 7 "NtClose" false .null [("retval", .int 5), ("filename", .null)]⟩,
    ⟨⟨.zero, 0⟩, .debug "note"⟩,
    ⟨⟨.zero, 0⟩, .buffer [1, 2, 3]⟩]

/-- A table that knows no calls. -/
def noCalls : CallTable := .ofLists [] [] [] []

theorem delivers_everyOperation :
    (Sender.handshake chopped).1 = .ok () ∧ ∃ bytes,
      ((Sender.connect chopped noCalls ⟨.zero, 0⟩).run everyOperation).2.sink.accepted.toList
        = chopped.accepted.toList ++ (Handshake.line ++ bytes) ∧
      Delivers noCalls everyOperation bytes := by
  have regular : Regular everyOperation := ⟨by decide +kernel, by decide +kernel⟩
  have all : ((Sender.connect chopped noCalls ⟨.zero, 0⟩).run everyOperation).1.all Except.toBool
      = true := by
    decide +kernel
  apply delivers_of_ok takesAll_chopped noCalls ⟨.zero, 0⟩ regular
  · intro result mem
    have succeeded := List.all_eq_true.1 all result mem
    cases result with
    | ok done => rfl
    | error e => cases succeeded
  · decide +kernel

end CallTrace
