import CallTrace.Proofs.Delivery.Heard
import CallTrace.Proofs.Delivery.Run
import CallTrace.Proofs.Receiver.Calls
import CallTrace.Proofs.Receiver.Cut

/-!
What the greatest length of a frame does to a trace. A sender writes frames of any length that four
octets can tell, and a reader takes none beyond `Frame.maxLength`, so one long value can end a trace
(`longNote_ends_stream`). `stopsAtLimit_of_takesAll` says that nothing else does: a receiver takes
every frame up to the first that is too long, and yields the records of all requests before it.
-/

namespace CallTrace

variable {σ : Type}

/-! ## What requests send -/

namespace Sender

variable {s : Sender} {request : Request} {message : Message}

/-- Dumps are sent under their own digest. -/
theorem checksum_of_mem_prepare {payload : Bytes} {digest : String}
    (mem : .buffer payload digest ∈ (s.prepare request).1) : digest = checksum payload := by
  have noCall {t : Sender} {index : UInt32} {name : String} {success : Bool} {result : Value}
      {args : NamedValues} :
      .buffer payload digest ∉ (t.prepareCall index name success result args).1 := by
    unfold prepareCall
    split
    · simp
    · simp
  rcases request with ⟨clock, operation⟩
  cases operation with
  | emit index name success result args => exact absurd mem noCall
  | announce pid ppid path => exact absurd mem noCall
  | debug text => cases List.mem_singleton.1 mem
  | buffer dump =>
    cases List.mem_singleton.1 mem
    rfl
  | setPid pid => cases mem

/-- Every frame that is not too long is read back as a message of some request. -/
theorem decode?_sentBodies {requests : List Request}
    (plain : ∀ request ∈ requests, request.IsPlain) {body : Bytes}
    (mem : body ∈ s.sentBodies requests) (short : Frame.readable body = true) :
    ∃ message, Message.decode? body = some message ∧
      ∀ info, message = .info info → info.name ≠ ProcessInfo.processMarker := by
  rcases List.mem_filterMap.1 mem with ⟨a, attempted, here⟩
  rcases mem_log attempted with ⟨t, request, among, prepared⟩
  rcases plain_prepare (plain request among) prepared with ⟨itself, named⟩
  rw [Frame.readable, decide_eq_true_iff] at short
  refine ⟨_, Message.decode?_of_encode? (Attempt.body?_eq_some_iff.1 here).1 itself
    (Nat.lt_of_le_of_lt short (by decide)), ?_⟩
  intro info same
  cases message : a.message with
  | info call =>
    rw [message] at same
    exact named info (message.trans same)
  | buffer payload checksum => rw [message] at same; cases same
  | debug tid time text => rw [message] at same; cases same
  | data call => rw [message] at same; cases same

end Sender

/-! ## Receivers that no body ends -/

namespace Receiver

variable {r : Receiver σ} {before : List Bytes}

/-- A receiver that knows no announcement is not ended by a message. -/
theorem Informed.takeBody_done (informed : r.Informed before) (running : r.done = false)
    (named : ∀ body ∈ before, ∀ info, Message.decode? body = some (.info info) →
      info.name ≠ ProcessInfo.processMarker)
    {body : Bytes} {message : Message} (decoded : Message.decode? body = some message) :
    (r.takeBody body).2.done = false := by
  have taken := r.taken_takeBody body
  cases outcome : r.takeBody body with
  | mk step t =>
    rw [outcome] at taken
    cases taken with
    | yielded accepted => exact running
    | skipped accepted => exact running
    | dropped refused mild => exact running
    | ended refused fatal =>
      rcases (Session.acceptBody_error refused).1 with ⟨undecoded, -⟩ | ⟨other, -, cause⟩
      · rw [decoded] at undecoded
        cases undecoded
      · cases cause with
        | undescribed unknown => cases fatal
        | miscounted known differ => cases fatal
        | altered differ => cases fatal
        | announcement known bound marker failed =>
          rw [informed] at known
          rcases Option.map_eq_some_iff.1 known with ⟨d, last, rfl⟩
          rcases mem_of_lastDescription? last with ⟨earlier, mem, described⟩
          exact absurd marker (named earlier mem _ described)

/-- Nor by many of them. -/
theorem Informed.feed_done (informed : r.Informed before) (running : r.done = false)
    {bodies : List Bytes}
    (decoded : ∀ body ∈ before ++ bodies, ∃ message, Message.decode? body = some message ∧
      ∀ info, message = .info info → info.name ≠ ProcessInfo.processMarker) :
    (r.feed bodies).2.done = false := by
  induction bodies generalizing r before with
  | nil => exact running
  | cons body later ih =>
    rw [feed_cons running]
    rw [List.append_cons] at decoded
    refine ih (informed.takeBody body) ?_ decoded
    rcases decoded body (List.mem_append_left later List.mem_concat_self) with ⟨message, here, -⟩
    refine informed.takeBody_done running ?_ here
    intro earlier mem info described
    rcases decoded earlier (List.mem_append_left later (List.mem_append_left [body] mem))
      with ⟨other, same, named⟩
    exact named info (Option.some.inj (same.symm.trans described))

/-- Frames that were written end a stream only by the first that is too long. -/
theorem ending_frames {written : List Bytes}
    (small : ∀ body ∈ written,
      body.length + Frame.lengthSize < LittleEndian.capacity Frame.lengthSize) :
    ending (Frame.remainder (written.flatMap Frame.encode)) none
      = (written.find? fun body => !Frame.readable body).map fun body =>
          .tooLarge (body.length + Frame.lengthSize) Frame.maxLength := by
  induction written with
  | nil =>
    have bare : Frame.Unframed [] := by
      intro body rest here
      cases here
    rw [List.flatMap_nil, bare.split.2]
    rfl
  | cons body later ih =>
    rcases List.forall_mem_cons.1 small with ⟨here, others⟩
    rw [List.flatMap_cons]
    cases fits : Frame.readable body with
    | true =>
      rw [(Frame.split_of_framed (Frame.front_encode_append (of_decide_eq_true fits) _)).2,
        ih others, List.find?_cons_of_neg (by simp [fits])]
    | false =>
      have refused := Frame.front_encode_append_of_large here
        (Nat.lt_of_not_le (of_decide_eq_false fits)) (later.flatMap Frame.encode)
      have unframed : Frame.Unframed (Frame.encode body ++ later.flatMap Frame.encode) := by
        intro other rest framed
        rw [refused] at framed
        cases framed
      rw [unframed.split.2, ending, refused, List.find?_cons_of_pos (by simp [fits])]
      rfl

end Receiver

/-! ## Messages and their bodies -/

/-- Frames that are not too long are read back as their messages. -/
theorem decode?_of_bodies {messages : List Message} {bodies : List Bytes}
    (plain : ∀ message ∈ messages, message.Plain)
    (written : messages.map Message.body? = bodies.map some)
    (short : ∀ body ∈ bodies, Frame.readable body = true) :
    bodies.map Message.decode? = messages.map fun message => some message.received := by
  induction bodies generalizing messages with
  | nil =>
    have none : messages = [] := List.map_eq_nil_iff.1 written
    rw [none]
    rfl
  | cons body later ih =>
    rcases List.map_eq_cons_iff.1 written with ⟨message, others, rfl, here, rest⟩
    rcases List.forall_mem_cons.1 plain with ⟨itself, plainOthers⟩
    rcases List.forall_mem_cons.1 short with ⟨fits, shortOthers⟩
    have small : body.length + Frame.lengthSize < 0x80000000 :=
      Nat.lt_of_le_of_lt (of_decide_eq_true fits) (by decide)
    have decoded := Message.decode?_of_encode? (Attempt.body?_eq_some_iff.1 here).1 itself small
    rw [List.map_cons, List.map_cons, decoded, ih plainOthers rest shortOthers]

/-! ## Whole runs -/

namespace Sender

/-- Whether the frames of some requests are all short enough for a reader, and one of the next
request, if there is one, is not. -/
structure LimitBehind (s : Sender) (front back : List Request) : Prop where
  short : ∀ body ∈ s.sentBodies front, Frame.readable body = true
  long : ∀ request later, back = request :: later →
    ∃ body ∈ s.sentBodies (front ++ [request]), Frame.readable body = false

theorem sentBodies_cons (s : Sender) (request : Request) (later : List Request) :
    s.sentBodies (request :: later)
      = s.sentBodies [request] ++ (s.perform request).2.sentBodies later :=
  s.sentBodies_append [request] later

theorem exists_limitBehind (s : Sender) (requests : List Request) :
    ∃ front back, requests = front ++ back ∧ s.LimitBehind front back := by
  induction requests generalizing s with
  | nil => exact ⟨[], [], rfl, nofun, nofun⟩
  | cons request later ih =>
    by_cases short : ∀ body ∈ s.sentBodies [request], Frame.readable body = true
    · rcases ih (s.perform request).2 with ⟨front, back, rfl, limit⟩
      refine ⟨request :: front, back, rfl, ?_, ?_⟩
      · rw [sentBodies_cons, List.forall_mem_append]
        exact ⟨short, limit.short⟩
      · intro next rest eq
        rcases limit.long next rest eq with ⟨body, mem, long⟩
        refine ⟨body, ?_, long⟩
        rw [List.cons_append, sentBodies_cons]
        exact List.mem_append_right _ mem
    · refine ⟨[], request :: later, rfl, nofun, ?_⟩
      rintro _ _ ⟨⟩
      simpa using short

theorem LimitBehind.eq_nil_of_short {s : Sender} {front back : List Request}
    (limit : s.LimitBehind front back)
    (short : ∀ body ∈ s.sentBodies (front ++ back), Frame.readable body = true) : back = [] := by
  cases back with
  | nil => rfl
  | cons request later =>
    rcases limit.long request later rfl with ⟨body, mem, long⟩
    have among : body ∈ s.sentBodies (front ++ request :: later) := by
      rw [List.append_cons, sentBodies_append]
      exact List.mem_append_left _ mem
    rw [short body among] at long
    cases long

/-- What a reader finds of the frames of a run. -/
theorem LimitBehind.takeWhile {s : Sender} {front back : List Request}
    (limit : s.LimitBehind front back) :
    ∃ cut, (s.sentBodies (front ++ back)).takeWhile Frame.readable = s.sentBodies front ++ cut ∧
      (back = [] ∧ cut = [] ∨ ∃ request later, back = request :: later ∧
        cut <+: (s.run front).2.sentBodies [request] ∧
        cut ≠ (s.run front).2.sentBodies [request]) := by
  rw [sentBodies_append, List.takeWhile_append_of_pos limit.short]
  refine ⟨_, rfl, ?_⟩
  cases back with
  | nil => exact .inl ⟨rfl, rfl⟩
  | cons request later =>
    right
    rcases limit.long request later rfl with ⟨body, mem, long⟩
    rw [sentBodies_append] at mem
    have here : body ∈ (s.run front).2.sentBodies [request] := by
      rcases List.mem_append.1 mem with earlier | here
      · rw [limit.short body earlier] at long
        cases long
      · exact here
    have strict : ((s.run front).2.sentBodies [request]).takeWhile Frame.readable
        ≠ (s.run front).2.sentBodies [request] := by
      intro whole
      have all := List.all_takeWhile (p := Frame.readable)
        (l := (s.run front).2.sentBodies [request])
      rw [whole, List.all_eq_true] at all
      rw [all body here] at long
      cases long
    refine ⟨request, later, rfl, ?_⟩
    rw [sentBodies_cons, List.takeWhile_append, if_neg]
    · exact ⟨List.takeWhile_prefix _, strict⟩
    · intro length
      exact strict ((List.takeWhile_prefix _).eq_of_length length)

end Sender

/-- How a receiver comes to its end on the frames of a run: it takes those in front of the first
that is too long, and stops there if there is one. -/
structure StopsAtLimit (table : CallTable) (s : Sender) (requests : List Request)
    (outcome : List Record × Receiver σ) : Prop where
  done : outcome.2.done = true
  fault : outcome.2.fault = ((s.sentBodies requests).find? fun body => !Frame.readable body).map
    fun body => .frame (.tooLarge (body.length + Frame.lengthSize) Frame.maxLength)
  consumed : outcome.2.consumed = Frame.extent ((s.sentBodies requests).takeWhile Frame.readable)
  /-- All requests are heard that succeed before the first one with a frame that is too long. -/
  records : (∀ a ∈ s.log requests, a.message.IsDescription → a.body?.isSome = true) →
    ∃ front back, requests = front ++ back ∧ s.LimitBehind front back ∧
      outcome.1 = heardFrom table [] (front.zip (s.run front).1)

section

variable {table : CallTable} {s : Sender} {kept : σ}

/-- The messages that a reader finds are those of the requests in front of the limit, with
descriptions behind them at most. -/
theorem Sender.LimitBehind.hears (fresh : Synchronised table [] s (Session.initial kept))
    (reliable : s.sink.TakesAll) {front back : List Request} (limit : s.LimitBehind front back)
    (plain : ∀ request ∈ front ++ back, request.IsPlain)
    (framed : ∀ a ∈ s.log (front ++ back), a.message.IsDescription → a.body?.isSome = true)
    (other : CallTable) (store : BufferStore σ) :
    ∃ messages last, (Session.initial kept).Hears other store messages
        (heardFrom table [] (front.zip (s.run front).1)) last ∧
      (∀ message ∈ messages, message.Plain) ∧
      messages.map Message.body?
        = ((s.sentBodies (front ++ back)).takeWhile Frame.readable).map some := by
  rw [log_append, List.forall_mem_append] at framed
  rcases fresh.attemptedAll reliable (List.forall_mem_append.1 plain).1 framed.1 other store with
    ⟨first, mid, hears, itself, bodies, stays, after⟩
  rcases limit.takeWhile with ⟨cut, read, ⟨rfl, rfl⟩ | ⟨request, later, rfl, isPrefix, strict⟩⟩
  · exact ⟨first, mid, hears, itself, by rw [read, List.append_nil, bodies]⟩
  · rw [List.append_cons] at plain
    have here : ∀ a ∈ (s.run front).2.log [request],
        a.message.IsDescription → a.body?.isSome = true := by
      have split := log_append (s.run front).2 [request] later
      rw [List.singleton_append] at split
      rw [split, List.forall_mem_append] at framed
      exact framed.2.1
    have plainHere := (List.forall_mem_append.1 plain).1
    rcases after.interrupted stays plainHere here other store isPrefix strict with
      ⟨rest, last, hearsRest, prepared, bodiesRest⟩
    refine ⟨first ++ rest, last, ?_, List.forall_mem_append.2 ⟨itself, ?_⟩, ?_⟩
    · have both := hears.append hearsRest
      rwa [List.append_nil] at both
    · intro message mem
      have unreserved := plainHere request (List.mem_append_right front List.mem_cons_self)
      exact (plain_prepare unreserved (prepared message mem)).1
    · rw [read, List.map_append, List.map_append, bodies, bodiesRest]

/-- A receiver takes all frames that are short enough, and still runs. -/
theorem Sender.feed_sentBodies {requests : List Request}
    (plain : ∀ request ∈ requests, request.IsPlain) (source : Source) (other : CallTable)
    (store : BufferStore σ) (kept : σ) :
    let r := (Receiver.start source other store kept).feed
      ((s.sentBodies requests).takeWhile Frame.readable)
    r.2.done = false ∧ r.2.fault = none := by
  intro r
  have short : ∀ body ∈ (s.sentBodies requests).takeWhile Frame.readable,
      Frame.readable body = true := List.all_eq_true.1 List.all_takeWhile
  have running : r.2.done = false := by
    refine (Receiver.informed_start source other store kept).feed_done rfl ?_
    intro body mem
    exact decode?_sentBodies plain ((List.takeWhile_prefix _).subset mem) (short body mem)
  refine ⟨running, ?_⟩
  rcases Receiver.feed_fault (r := .start source other store kept) rfl rfl
    ((s.sentBodies requests).takeWhile Frame.readable) with ⟨-, none⟩ | ⟨ended, -⟩
  · exact none
  · rw [running] at ended
    cases ended

/-- A receiver on the frames of a run. -/
theorem stopsAtLimit_of_supplies (fresh : Synchronised table [] s (Session.initial kept))
    (reliable : s.sink.TakesAll) {requests : List Request}
    (plain : ∀ request ∈ requests, request.IsPlain) {source : Source} (other : CallTable)
    (store : BufferStore σ)
    (supply : source.Supplies ((s.sentBodies requests).flatMap Frame.encode) none) :
    StopsAtLimit table s requests (Receiver.start source other store kept).records := by
  have small : ∀ body ∈ s.sentBodies requests,
      body.length + Frame.lengthSize < LittleEndian.capacity Frame.lengthSize :=
    fun body mem => Sender.length_sentBodies_lt mem
  have bare : Frame.Unframed [] := by
    intro body rest here
    cases here
  have found := Frame.bodies_frames_append small bare
  rcases Sender.feed_sentBodies (s := s) plain source other store kept with ⟨running, sound⟩
  rcases Receiver.records_of_supplies (r := .start source other store kept) supply rfl
    with ⟨rest, records⟩
  rw [List.append_nil] at found
  rw [found, Receiver.finish_of_running running sound, Receiver.ending_frames small] at records
  rw [records]
  refine ⟨rfl, Option.map_map .., ?_, ?_⟩
  · have counted := (Receiver.feed_consumed (.start source other store kept)
      ((s.sentBodies requests).takeWhile Frame.readable)).2.2 running
    exact counted.trans (Nat.zero_add _)
  · intro framed
    rcases s.exists_limitBehind requests with ⟨front, back, rfl, limit⟩
    refine ⟨front, back, rfl, limit, ?_⟩
    have short : ∀ body ∈ (s.sentBodies (front ++ back)).takeWhile Frame.readable,
        Frame.readable body = true := List.all_eq_true.1 List.all_takeWhile
    rcases limit.hears fresh reliable plain framed other store with
      ⟨messages, last, hears, itself, bodies⟩
    exact Receiver.records_feed_of_hears (r := .start source other store kept) rfl hears
      (decode?_of_bodies itself bodies short)

end

/-- On a transport that never fails, a plain request fails only for want of a frame, and its frames
have no limit but that of their length in four octets, dumps apart. A receiver stops at the first
that is too long for it, and nowhere else. -/
theorem stopsAtLimit_of_takesAll {sink : Sink} (reliable : sink.TakesAll) (table : CallTable)
    (clock : Clock) {requests : List Request} (plain : ∀ request ∈ requests, request.IsPlain) :
    let s := Sender.start sink table clock
    (s.run requests).2.sink.accepted.toList
        = sink.accepted.toList ++ (s.sentBodies requests).flatMap Frame.encode ∧
      (∀ a ∈ s.log requests, a.Succeeded ↔ a.body?.isSome = true) ∧
      (∀ body ∈ s.sentBodies requests, body.length + Frame.lengthSize < UInt32.size) ∧
      (∀ a ∈ s.log requests, ∀ payload digest, a.message = .buffer payload digest →
        a.body?.all Frame.readable = true) ∧
      ∀ {σ : Type} (source : Source) (other : CallTable) (store : BufferStore σ) (kept : σ),
        source.Supplies ((s.sentBodies requests).flatMap Frame.encode) none →
        StopsAtLimit table s requests (Receiver.start source other store kept).records := by
  intro s
  have sinks := ((s.attempts_log requests).of_takesAll reliable).1
  refine ⟨Sender.accepted_of_takesAll reliable requests,
    fun a mem => (Attempt.of_takesAll (sinks a mem)).2.1,
    fun body mem => Sender.length_sentBodies_lt mem, ?_, ?_⟩
  · intro a mem payload digest dump
    rcases Sender.mem_log mem with ⟨t, request, -, prepared⟩
    rw [dump] at prepared
    obtain rfl := Sender.checksum_of_mem_prepare prepared
    cases here : a.body? with
    | none => rfl
    | some body =>
      have encoded := (Attempt.body?_eq_some_iff.1 here).1
      rw [dump] at encoded
      exact Message.readable_of_buffer encoded
  · intro σ source other store kept supply
    exact stopsAtLimit_of_supplies (.start sink table clock kept) reliable plain other store supply

/-- A call, a note and a dump. -/
def threeUses : List Request :=
  [⟨⟨.zero, 0⟩, .emit 7 "NtClose" true (.int 0) [("handle", .int 5)]⟩,
    ⟨⟨.zero, 0⟩, .debug "note"⟩, ⟨⟨.zero, 0⟩, .buffer [1, 2, 3]⟩]

theorem stopsAtLimit_threeUses :
    let s := Sender.start chopped noCalls ⟨.zero, 0⟩
    let bytes := (s.run threeUses).2.sink.accepted.toList
    let source := Source.ofBytes bytes (some 7) [(5, .interrupted), (40, .interrupted)]
    (Receiver.start source noCalls .discard ()).records.2.fault = none ∧
      (Receiver.start source noCalls .discard ()).records.1 = expected noCalls threeUses := by
  have plain : ∀ request ∈ threeUses, request.IsPlain := by decide +kernel
  obtain ⟨accepted, -, -, -, receiver⟩ :=
    stopsAtLimit_of_takesAll takesAll_chopped noCalls ⟨.zero, 0⟩ plain
  have fresh : chopped.accepted.toList = [] := rfl
  rw [fresh, List.nil_append] at accepted
  intro s bytes source
  have wire : source = .ofBytes ((s.sentBodies threeUses).flatMap Frame.encode) (some 7)
      [(5, .interrupted), (40, .interrupted)] := by
    unfold source bytes s
    rw [accepted]
  have serves := Source.servesAll_ofBytes ((s.sentBodies threeUses).flatMap Frame.encode)
    (show some 7 ≠ some 0 by decide)
    (show ∀ planned ∈ [(5, Failure.interrupted), (40, .interrupted)], planned.2 = .interrupted
      by decide)
  rw [← wire] at serves
  obtain ⟨-, fault, -, records⟩ := receiver source noCalls .discard () (.ending serves)
  have short : ∀ body ∈ s.sentBodies threeUses, Frame.readable body = true := by decide +kernel
  constructor
  · rw [fault, List.find?_eq_none.2, Option.map_none]
    intro body mem
    rw [short body mem]
    exact Bool.false_ne_true
  · have framed : ∀ a ∈ s.log threeUses, a.message.IsDescription → a.body?.isSome = true := by
      decide +kernel
    have ok : ∀ result ∈ (s.run threeUses).1, result.toBool = true := by decide +kernel
    obtain ⟨front, back, whole, limit, eq⟩ := records framed
    rw [whole] at short
    obtain rfl := limit.eq_nil_of_short short
    rw [List.append_nil] at whole
    rw [eq, ← whole]
    have regular : Regular threeUses := ⟨by decide +kernel, by decide +kernel⟩
    apply @heardFrom_of_ok noCalls [] threeUses regular _ (s.length_run threeUses)
    intro result mem
    have succeeded := ok result mem
    cases result with
    | ok done => rfl
    | error e => cases succeeded

/-! ## A note that is too long -/

/-- A note is written whenever the length of its frame can be. -/
theorem Sender.perform_debug {s : Sender} (reliable : s.sink.TakesAll) (clock : Clock)
    {text : String}
    (small : (Utf8.encode text).length + 53 < LittleEndian.capacity Frame.lengthSize) :
    (s.perform ⟨clock, .debug text⟩).1 = .ok () ∧
      ∃ body, s.sentBodies [⟨clock, .debug text⟩] = [body] ∧
        body.length + Frame.lengthSize = (Utf8.encode text).length + 53 := by
  have shape : (s.prepare ⟨clock, .debug text⟩).1
      = [] ++ [.debug s.pid clock.elapsed text] := rfl
  have framed : ∀ a ∈ s.log [⟨clock, .debug text⟩], a.message.IsDescription →
      a.body?.isSome = true := by
    intro a mem describes
    rcases mem_log mem with ⟨t, request, among, prepared⟩
    rw [List.mem_singleton.1 among] at prepared
    rw [List.mem_singleton.1 prepared] at describes
    cases describes
  rcases sentBodies_singleton reliable shape nofun framed with ⟨-, sent, ok⟩
  rcases @Message.body?_debug s.pid clock.elapsed text small with ⟨body, here, length⟩
  rw [here] at sent ok
  exact ⟨ok.2 rfl, body, sent, length⟩

/-- A note between the limits of both sides is sent with success, and so is the next note; a
receiver stops at the first and yields neither. -/
theorem Sender.run_notes {s : Sender} (reliable : s.sink.TakesAll) (clock : Clock)
    {text later : String} (long : Frame.maxLength < (Utf8.encode text).length + 53)
    (small : (Utf8.encode text).length + 53 < LittleEndian.capacity Frame.lengthSize)
    (smallLater : (Utf8.encode later).length + 53 < LittleEndian.capacity Frame.lengthSize)
    (table : CallTable) (store : BufferStore σ) (kept : σ) {source : Source}
    (supply : source.Supplies
      ((s.sentBodies [⟨clock, .debug text⟩, ⟨clock, .debug later⟩]).flatMap Frame.encode) none) :
    (s.run [⟨clock, .debug text⟩, ⟨clock, .debug later⟩]).1 = [.ok (), .ok ()] ∧
      (∃ body ∈ s.sentBodies [⟨clock, .debug text⟩, ⟨clock, .debug later⟩],
        Frame.maxLength < body.length + Frame.lengthSize) ∧
      (Receiver.start source table store kept).records.1 = [] ∧
      (Receiver.start source table store kept).records.2.fault
        = some (.frame (.tooLarge ((Utf8.encode text).length + 53) Frame.maxLength)) := by
  rcases perform_debug reliable clock small with ⟨ok, body, sent, length⟩
  have stays : (s.perform ⟨clock, .debug text⟩).2.sink.TakesAll :=
    ((s.attempts_log [⟨clock, .debug text⟩]).of_takesAll reliable).2
  rcases perform_debug stays clock smallLater with ⟨okLater, bodyLater, sentLater, -⟩
  have both : s.sentBodies [⟨clock, .debug text⟩, ⟨clock, .debug later⟩] = [body, bodyLater] := by
    rw [sentBodies_cons, sent, sentLater]
    rfl
  have results : (s.run [⟨clock, .debug text⟩, ⟨clock, .debug later⟩]).1
      = [(s.perform ⟨clock, .debug text⟩).1,
          ((s.perform ⟨clock, .debug text⟩).2.perform ⟨clock, .debug later⟩).1] := rfl
  rw [results, ok, okLater, both]
  refine ⟨rfl, ⟨body, List.mem_cons_self, by rwa [length]⟩, ?_⟩
  rw [both, List.flatMap_cons] at supply
  have refused := Frame.front_encode_append_of_large (by rwa [length]) (by rwa [length])
    ([bodyLater].flatMap Frame.encode)
  have unframed : Frame.Unframed (Frame.encode body ++ [bodyLater].flatMap Frame.encode) := by
    intro other rest framed
    rw [refused] at framed
    cases framed
  rcases Receiver.records_of_supplies (r := .start source table store kept) supply rfl
    with ⟨rest, records⟩
  rw [unframed.split.1, unframed.split.2, Receiver.ending, refused, length] at records
  rw [records]
  exact ⟨rfl, rfl⟩

/-- As many letters as the longest frame has octets. -/
def longText : String := String.ofList (List.replicate Frame.maxLength 'a')

theorem length_longText : (Utf8.encode longText).length = Frame.maxLength := by
  rw [longText, Utf8.encode_eq_flatMap, String.toList_ofList, List.length_flatMap,
    List.map_replicate, List.sum_replicate_nat]
  exact Nat.mul_one _

/-- A long note and a short one. -/
def longNote : List Request :=
  [⟨⟨.zero, 0⟩, .debug longText⟩, ⟨⟨.zero, 0⟩, .debug "later"⟩]

theorem longNote_ends_stream :
    let s := Sender.start .unlimited noCalls ⟨.zero, 0⟩
    let bytes := (s.run longNote).2.sink.accepted.toList
    let outcome := (Receiver.start (.ofBytes bytes none []) noCalls .discard ()).records
    (s.run longNote).1 = [.ok (), .ok ()] ∧
      (∃ body ∈ s.sentBodies longNote, Frame.maxLength < body.length + Frame.lengthSize) ∧
      outcome.1 = [] ∧
      outcome.2.fault = some (.frame (.tooLarge (Frame.maxLength + 53) Frame.maxLength)) := by
  intro s bytes outcome
  have reliable : s.sink.TakesAll := Sink.takesAll_unlimited
  have long : Frame.maxLength < (Utf8.encode longText).length + 53 := by
    rw [length_longText]
    decide
  have small : (Utf8.encode longText).length + 53 < LittleEndian.capacity Frame.lengthSize := by
    rw [length_longText]
    decide
  have accepted : bytes = (s.sentBodies longNote).flatMap Frame.encode :=
    (Sender.accepted_of_takesAll reliable longNote).trans (List.nil_append _)
  have supply : (Source.ofBytes bytes none []).Supplies
      ((s.sentBodies longNote).flatMap Frame.encode) none :=
    accepted ▸ Source.supplies_ofBytes bytes
  have run := Sender.run_notes reliable ⟨.zero, 0⟩ long small (by decide) noCalls .discard () supply
  rwa [length_longText] at run

end CallTrace
