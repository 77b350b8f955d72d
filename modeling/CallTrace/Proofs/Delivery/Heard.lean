import CallTrace.Proofs.Delivery.Step
import CallTrace.Proofs.Sender.Reliable

/-!
What a receiver makes of calls, notes and dumps whose user keeps to no rule but to leave
announcements alone. The first call of an index decides how every other is read: under its name and
its argument names, or not at all if the number of arguments is another (`heard?`). For users who
keep to all rules this is the record that they expect (`heard?_of_regular`).

Requests may also fail. `Synchronised.attemptedAll` says that both sides stay synchronised, and that
the records are those of the requests that did not fail.
-/

namespace CallTrace

variable {σ : Type}

/-! ## Requests without announcements -/

/-- Whether a request sends a call, a note or a dump of its user, if it sends anything. -/
def Request.IsPlain (request : Request) : Prop :=
  request.Unreserved ∧ request.announced? = none

instance (request : Request) : Decidable request.IsPlain := inferInstanceAs (Decidable (_ ∧ _))

/-- No first call of an index has a name or an index of announcements. -/
theorem unreserved_firstCall {requests : List Request}
    (plain : ∀ request ∈ requests, request.IsPlain) {index : UInt32} {first : SentCall}
    (here : firstCall? requests index = some first) :
    first.index.toNat < Sender.processIndex.toNat ∧ first.name ≠ ProcessInfo.processMarker ∧
      first.name ≠ ProcessInfo.threadMarker := by
  rcases List.mem_filterMap.1 (List.mem_of_find?_eq_some here) with ⟨request, mem, sent⟩
  rcases plain request mem with ⟨unreserved, unannounced⟩
  rcases request with ⟨clock, operation⟩
  cases operation with
  | emit index name success result args =>
    cases sent
    exact unreserved
  | announce pid ppid path => cases unannounced
  | debug text => cases sent
  | buffer payload => cases sent
  | setPid pid => cases sent

namespace Sender

variable {s : Sender} {request : Request} {message : Message}

theorem plain_prepareCall {index : UInt32} {name : String} {success : Bool} {result : Value}
    {args : NamedValues} (mem : message ∈ (s.prepareCall index name success result args).1) :
    message.Plain ∧ ∀ info, message = .info info → info.name = name := by
  have data := itemsReadable_dataOf s ⟨index, name, args⟩ success result
  unfold prepareCall at mem
  split at mem
  · rcases List.mem_cons.1 mem with rfl | mem
    · exact ⟨⟨trivial, trivial⟩, fun info same => by cases same; rfl⟩
    · rw [List.mem_singleton.1 mem]
      exact ⟨data, nofun⟩
  · rw [List.mem_singleton.1 mem]
    exact ⟨data, nofun⟩

/-- What a request sends stands for itself. -/
theorem plain_of_mem_prepare (mem : message ∈ (s.prepare request).1) : message.Plain := by
  rcases request with ⟨clock, operation⟩
  cases operation with
  | emit index name success result args => exact (plain_prepareCall mem).1
  | announce pid ppid path => exact (plain_prepareCall mem).1
  | debug text =>
    rw [List.mem_singleton.1 mem]
    trivial
  | buffer payload =>
    rw [List.mem_singleton.1 mem]
    trivial
  | setPid pid => cases mem

/-- What a plain request sends stands for itself, and describes no announcement. -/
theorem plain_prepare (plain : request.IsPlain) (mem : message ∈ (s.prepare request).1) :
    message.Plain ∧ ∀ info, message = .info info → info.name ≠ ProcessInfo.processMarker := by
  rcases request with ⟨clock, operation⟩
  rcases plain with ⟨unreserved, unannounced⟩
  cases operation with
  | emit index name success result args =>
    rcases plain_prepareCall mem with ⟨itself, named⟩
    exact ⟨itself, fun info same => named info same ▸ unreserved.2.1⟩
  | announce pid ppid path => cases unannounced
  | debug text =>
    rw [List.mem_singleton.1 mem]
    exact ⟨trivial, nofun⟩
  | buffer payload =>
    rw [List.mem_singleton.1 mem]
    exact ⟨trivial, nofun⟩
  | setPid pid => cases mem

end Sender

/-! ## Records -/

/-- A call as it is read by a receiver that knows the first call of its index. -/
def SentCall.readAs (call first : SentCall) : SentCall :=
  ⟨call.index, first.name, first.argNames.zip (call.args.map Prod.snd)⟩

/-- The record that a receiver yields of a request behind others. A call has one if its arguments
are as many as those of the first call of its index. -/
def heard? (table : CallTable) (before : List Request) (request : Request) : Option Record :=
  match request.operation with
  | .emit index name success result args =>
    let call : SentCall := ⟨index, name, args⟩
    let first := (firstCall? before index).getD call
    if args.length = first.args.length then
      some (callRecord table before request.clock (call.readAs first) success result)
    else none
  | _ => expected? table before request

/-- The records of requests behind others, but for those that failed. -/
def heardFrom (table : CallTable) (before : List Request) :
    List (Request × Except SendError Unit) → List Record
  | [] => []
  | (request, result) :: later =>
    (result.toOption.bind fun _ => heard? table before request).toList
      ++ heardFrom table (before ++ [request]) later

section

variable {call first : SentCall}

theorem SentCall.readAs_of_agrees (name : first.name = call.name)
    (agrees : first.argNames = call.argNames) : call.readAs first = call := by
  have whole := List.zip_unzip call.args
  rw [List.unzip_eq_map] at whole
  rw [readAs, name, agrees, argNames, whole]

theorem SentCall.argNames_readAs (length : call.args.length = first.args.length) :
    (call.readAs first).argNames = first.argNames := by
  have same : first.argNames.length = (call.args.map Prod.snd).length := by
    rw [argNames, List.length_map, List.length_map, length]
  exact List.map_fst_zip (Nat.le_of_eq same)

/-- The names of the arguments have no part in the data of a call. -/
theorem dataOf_readAs (length : call.args.length = first.args.length) (s : Sender) (success : Bool)
    (result : Value) :
    s.dataOf call.index success result (call.readAs first).args
      = s.dataOf call.index success result call.args := by
  have travels (args : NamedValues) :
      List.zipWith (fun arg format => ArgFormat.coerce format arg.2) args (ArgFormat.ofArgs args)
        = (args.map Prod.snd).map fun value => (ArgFormat.ofValue value).coerce value := by
    rw [ArgFormat.ofArgs, List.zipWith_map_right, List.zipWith_self, List.map_map]
    rfl
  have same : (call.args.map Prod.snd).length = first.argNames.length := by
    rw [SentCall.argNames, List.length_map, List.length_map, length]
  have values : (call.readAs first).args.map Prod.snd = call.args.map Prod.snd :=
    List.map_snd_zip (Nat.le_of_eq same)
  rw [Sender.dataOf, Sender.dataOf, travels, travels, values]

end

variable {table : CallTable} {before : List Request} {request : Request}

/-- Users who keep to the rules are heard as they expect. -/
theorem heard?_of_regular (regular : Regular (before ++ [request])) :
    heard? table before request = expected? table before request := by
  rcases request with ⟨clock, operation⟩
  cases operation with
  | emit index name success result args =>
    have sent : Request.call? ⟨clock, .emit index name success result args⟩
      = some ⟨index, name, args⟩ := rfl
    rcases regular.agrees (mem_calls_concat sent before) (firstCall?_concat_self sent before)
      with ⟨sameName, sameArgs⟩
    have length := congrArg List.length sameArgs
    rw [SentCall.argNames, SentCall.argNames, List.length_map, List.length_map] at length
    rw [heard?]
    dsimp only at sameName sameArgs length ⊢
    rw [if_pos length.symm, SentCall.readAs_of_agrees sameName sameArgs]
    rfl
  | announce pid ppid path => rfl
  | debug text => rfl
  | buffer payload => rfl
  | setPid pid => rfl

/-- If no request failed, and the user keeps to the rules, these are all records that are
expected. -/
theorem heardFrom_of_ok (table : CallTable) {before requests : List Request}
    (regular : Regular (before ++ requests)) {results : List (Except SendError Unit)}
    (length : results.length = requests.length) (ok : ∀ result ∈ results, result = .ok ()) :
    heardFrom table before (requests.zip results) = expectedFrom table before requests := by
  induction requests generalizing before results with
  | nil => rfl
  | cons request later ih =>
    rw [List.append_cons] at regular
    cases results with
    | nil => cases length
    | cons result others =>
      rcases List.forall_mem_cons.1 ok with ⟨rfl, okLater⟩
      rw [List.zip_cons_cons, heardFrom, ih regular (Nat.succ.inj length) okLater, expectedFrom,
        ← heard?_of_regular regular.front]
      rfl

/-! ## One request -/

section

variable {s : Sender} {session : Session σ} {call first : SentCall}

/-- The data of a call are read under the first call of its index, if the arguments are as many. -/
theorem acceptData_readAs
    (known : session.schema.get? (Sender.wireIndex call.index) = some (first.descriptor table))
    (values : session.schema.valueTables = .empty) (masks : session.schema.maskTables = .empty)
    (noProcess : first.name ≠ ProcessInfo.processMarker)
    (noThread : first.name ≠ ProcessInfo.threadMarker)
    (length : call.args.length = first.args.length)
    (first_eq : (firstCall? before call.index).getD call = first)
    (sender : s.pid = senderPid before) (receiver : session.pid = announcedPid? before)
    (success : Bool) (result : Value) :
    session.acceptData (s.dataOf call.index success result call.args).received
      = (.ok (callRecord table before s.clock (call.readAs first) success result), session) := by
  have own : ((firstCall? before call.index).getD (call.readAs first)).args = first.args := by
    subst first_eq
    cases firstCall? before call.index with
    | none => exact congrArg SentCall.args (SentCall.readAs_of_agrees rfl rfl)
    | some first => rfl
  have index : (call.readAs first).index = call.index := rfl
  rw [callRecord, index, own, ← sender, ← receiver, ← dataOf_readAs length, ← index]
  exact @acceptData_dataOf σ table (call.readAs first) session s first known values masks rfl
    (SentCall.argNames_readAs length).symm noProcess noThread success result

/-- They are dropped if the arguments are not as many. -/
theorem acceptData_of_differ
    (known : session.schema.get? (Sender.wireIndex call.index) = some (first.descriptor table))
    (differ : call.args.length ≠ first.args.length) (success : Bool) (result : Value) :
    ∃ e, session.acceptData (s.dataOf call.index success result call.args).received
        = (.error e, session) ∧ e.isFatal = false := by
  have index : (s.dataOf call.index success result call.args).received.index
      = Sender.wireIndex call.index := rfl
  have unbound : (first.descriptor table).bind?
      (s.dataOf call.index success result call.args).received.args = none := by
    apply if_neg
    intro same
    simp [CallData.received, Sender.dataOf, ArgFormat.ofArgs, SentCall.descriptor,
      Sender.leadingNames, SentCall.argNames] at same
    exact differ same
  rw [Session.acceptData, index, known]
  dsimp only
  rw [unbound]
  exact ⟨_, rfl, rfl⟩

/-- The data of a call behind its description are heard, whether they are taken or dropped. -/
theorem Synchronised.hears_data {clock : Clock} {index : UInt32} {name : String} {success : Bool}
    {result : Value} {args : NamedValues}
    (sync : Synchronised table (before ++ [⟨clock, .emit index name success result args⟩]) s
      session)
    (plain : ∀ earlier ∈ before ++ [⟨clock, .emit index name success result args⟩],
      earlier.IsPlain)
    (now : s.clock = clock) (other : CallTable) (store : BufferStore σ) :
    session.Hears other store [.data (s.dataOf index success result args)]
      (heard? table before ⟨clock, .emit index name success result args⟩).toList session := by
  rcases sync with ⟨-, sender, receiver, described⟩
  rw [senderPid_concat] at sender
  rw [announcedPid?_concat] at receiver
  have sent : Request.call? ⟨clock, .emit index name success result args⟩
      = some ⟨index, name, args⟩ := rfl
  have here := firstCall?_concat_self sent before
  have small : index.toNat < Sender.capacity :=
    Nat.lt_trans (plain _ (List.mem_append_right before List.mem_cons_self)).1.1 (by decide)
  rcases unreserved_firstCall plain here with ⟨-, noProcess, noThread⟩
  have known := described.known index small
  rw [here, Option.map_some] at known
  rw [heard?]
  dsimp only
  split
  · next length =>
    apply Session.Hears.single
    have data := acceptData_readAs known described.values described.masks noProcess noThread length
      rfl sender receiver success result
    rw [now] at data
    rw [Message.received, Session.accept, data]
  · next differ =>
    rcases @acceptData_of_differ σ table s session ⟨index, name, args⟩ _ known differ success result
      with ⟨e, dropped, mild⟩
    refine .refused ?_ mild .none
    rw [Message.received, Session.accept, dropped]

end

theorem Sender.descriptions_prepareCall {s : Sender} {index : UInt32} {name : String}
    {success : Bool} {result : Value} {args : NamedValues} {front : List Message} {last : Message}
    (shape : (s.prepareCall index name success result args).1 = front ++ [last]) :
    ∀ message ∈ front, message.IsDescription := by
  unfold prepareCall at shape
  split at shape
  · have both : [Message.info (s.infoOf index name args)]
        ++ [.data (s.dataOf index success result args)] = front ++ [last] := shape
    rw [← (List.append_inj' both rfl).1]
    intro message mem
    rw [List.mem_singleton.1 mem]
    rfl
  · have both : [] ++ [Message.data (s.dataOf index success result args)] = front ++ [last] := shape
    rw [← (List.append_inj' both rfl).1]
    exact nofun

/-- How a request is heard: it sends descriptions, which yield no record, and one message more,
which yields the record if there is one. With that message or without it, both sides have the books
that they should have. -/
structure Heard (table : CallTable) (before : List Request) (request : Request) (s : Sender)
    (session : Session σ) (other : CallTable) (store : BufferStore σ) (front : List Message)
    (last : Message) (mid final : Session σ) : Prop where
  shape : (s.prepare request).1 = front ++ [last]
  descriptions : ∀ message ∈ front, message.IsDescription
  quiet : session.Hears other store front [] mid
  heard : mid.Hears other store [last] (heard? table before request).toList final
  described : Synchronised table (before ++ [request]) (s.prepare request).2 mid
  after : Synchronised table (before ++ [request]) (s.prepare request).2 final

theorem Synchronised.hears_emit {s : Sender} {session : Session σ} {clock : Clock}
    {index : UInt32} {name : String} {success : Bool} {result : Value} {args : NamedValues}
    (sync : Synchronised table before s session)
    (plain : ∀ earlier ∈ before ++ [⟨clock, .emit index name success result args⟩],
      earlier.IsPlain)
    (other : CallTable) (store : BufferStore σ) :
    ∃ front last mid, Heard table before ⟨clock, .emit index name success result args⟩ s session
      other store front last mid mid := by
  rcases sync with ⟨rfl, sender, receiver, described⟩
  have sent : Request.call? ⟨clock, .emit index name success result args⟩
    = some ⟨index, name, args⟩ := rfl
  have small : index.toNat < Sender.capacity :=
    Nat.lt_trans (plain _ (List.mem_append_right before List.mem_cons_self)).1.1 (by decide)
  have marked : Described ({ s with clock } : Sender).table before
    ({ s with clock } : Sender).described session.schema := described
  rcases marked.describe sent small success result other store
    with ⟨front, schema, marked, shape, -, takes, after⟩
  have prepared : s.prepare ⟨clock, .emit index name success result args⟩ = _ := shape
  have synced : Synchronised s.table (before ++ [⟨clock, .emit index name success result args⟩])
      (s.prepare ⟨clock, .emit index name success result args⟩).2 { session with schema } := by
    rw [prepared]
    refine ⟨rfl, ?_, ?_, after⟩
    · rw [senderPid_concat]
      exact sender
    · rw [announcedPid?_concat]
      exact receiver
  have heard := synced.hears_data plain (by rw [prepared]) other store
  refine ⟨front, _, _, congrArg Prod.fst prepared,
    Sender.descriptions_prepareCall (congrArg Prod.fst shape), takes.hears, ?_, synced, synced⟩
  rw [prepared] at heard
  exact heard

/-- A plain request sends nothing, or is heard. -/
theorem Synchronised.hears {s : Sender} {session : Session σ}
    (sync : Synchronised table before s session)
    (plain : ∀ earlier ∈ before ++ [request], earlier.IsPlain) (other : CallTable)
    (store : BufferStore σ) :
    (s.prepare request).1 = [] ∧ heard? table before request = none ∧
        Synchronised table (before ++ [request]) (s.prepare request).2 session ∨
      ∃ front last mid final,
        Heard table before request s session other store front last mid final := by
  rcases request with ⟨clock, operation⟩
  cases operation with
  | emit index name success result args =>
    rcases sync.hears_emit plain other store with ⟨front, last, mid, heard⟩
    exact .inr ⟨front, last, mid, mid, heard⟩
  | announce pid ppid path =>
    cases (plain _ (List.mem_append_right before List.mem_cons_self)).2
  | debug text =>
    have taken : session.accept other store (Message.debug s.pid clock.elapsed text)
        = (.ok (some (.debug (senderPid before) clock.elapsed text)), session) := by
      rw [Session.accept, sync.sender]
    have after : Synchronised table (before ++ [⟨clock, .debug text⟩])
        (s.prepare ⟨clock, .debug text⟩).2 session := sync.silent rfl rfl rfl rfl rfl rfl
    exact .inr ⟨[], _, session, session, rfl, List.forall_mem_nil _, .none, .single taken, after,
      after⟩
  | buffer payload =>
    have taken : session.accept other store (Message.buffer payload (checksum payload))
        = (.ok none, { session with
            kept := (store.keep session.kept (checksum payload) payload).2 }) := by
      rw [Session.accept, verify, if_pos rfl]
    exact .inr ⟨[], _, session, _, rfl, List.forall_mem_nil _, .none, .single taken,
      sync.silent rfl rfl rfl rfl rfl rfl, sync.silent rfl rfl rfl rfl rfl rfl⟩
  | setPid pid => exact .inl ⟨rfl, rfl, sync.silent rfl rfl rfl rfl rfl rfl⟩

/-! ## Requests that may fail -/

theorem map_body?_of_framed {messages : List Message}
    (framed : ∀ message ∈ messages, message.body?.isSome = true) :
    messages.map Message.body? = (messages.filterMap Message.body?).map some := by
  induction messages with
  | nil => rfl
  | cons message later ih =>
    rcases List.forall_mem_cons.1 framed with ⟨here, others⟩
    rcases Option.isSome_iff_exists.1 here with ⟨body, body?⟩
    rw [List.map_cons, List.filterMap_cons_some body?, List.map_cons, ih others, body?]

section

variable {s : Sender} {session : Session σ}

/-- What a request leaves on a transport that never fails, if no description lacks a frame: the
frames of all its messages, or of its descriptions alone if it fails. -/
theorem Sender.sentBodies_singleton (reliable : s.sink.TakesAll) {front : List Message}
    {last : Message} (shape : (s.prepare request).1 = front ++ [last])
    (descriptions : ∀ message ∈ front, message.IsDescription)
    (framed : ∀ a ∈ s.log [request], a.message.IsDescription → a.body?.isSome = true) :
    (∀ message ∈ front, message.body?.isSome = true) ∧
      s.sentBodies [request] = front.filterMap Message.body? ++ last.body?.toList ∧
      ((s.perform request).1 = .ok () ↔ last.body?.isSome = true) := by
  have one : s.log [request] = attempts s.sink (s.prepare request).1 := List.append_nil _
  rw [one, shape] at framed
  rcases attempts_of_takesAll reliable descriptions framed with ⟨bodies, all, ok⟩
  refine ⟨bodies, ?_, ?_⟩
  · have bodyOf : Attempt.body? = Message.body? ∘ Attempt.message := rfl
    rw [sentBodies, one, shape, bodyOf, ← List.filterMap_map, all, List.filterMap_append]
    cases here : last.body? with
    | none => rw [List.filterMap_cons_none here]; rfl
    | some body => rw [List.filterMap_cons_some here]; rfl
  · rw [perform_eq, shape]
    exact ok

/-- Serving a request leaves the books in which its messages are prepared. -/
theorem Synchronised.performed {requests : List Request}
    (after : Synchronised table requests (s.prepare request).2 session) :
    Synchronised table requests (s.perform request).2 session := by
  rw [Sender.perform_eq]
  exact ⟨after.table_eq, after.sender, after.receiver, after.described⟩

/-- A request is heard unless it fails. What it writes then are its descriptions alone. -/
theorem Heard.attempted {other : CallTable} {store : BufferStore σ} {front : List Message}
    {last : Message} {mid final : Session σ}
    (heard : Heard table before request s session other store front last mid final)
    (reliable : s.sink.TakesAll)
    (framed : ∀ a ∈ s.log [request], a.message.IsDescription → a.body?.isSome = true) :
    ∃ messages behind, session.Hears other store messages
        (heardFrom table before [(request, (s.perform request).1)]) behind ∧
      (∀ message ∈ messages, message ∈ (s.prepare request).1) ∧
      messages.map Message.body? = (s.sentBodies [request]).map some ∧
      Synchronised table (before ++ [request]) (s.perform request).2 behind := by
  rcases Sender.sentBodies_singleton reliable heard.shape heard.descriptions framed with
    ⟨bodies, sent, ok⟩
  rw [heardFrom, heardFrom, List.append_nil, sent, heard.shape]
  cases here : last.body? with
  | some body =>
    rw [here] at ok
    refine ⟨front ++ [last], final, ?_, fun message mem => mem, ?_, heard.after.performed⟩
    · rw [ok.2 rfl]
      exact heard.quiet.append heard.heard
    · rw [List.map_append, map_body?_of_framed bodies, List.map_append, List.map_singleton, here]
      rfl
  | none =>
    rw [here] at ok
    refine ⟨front, mid, ?_, fun message mem => List.mem_append_left _ mem, ?_,
      heard.described.performed⟩
    · cases result : (s.perform request).1 with
      | ok done =>
        rw [result] at ok
        cases ok.1 rfl
      | error e => exact heard.quiet
    · rw [map_body?_of_framed bodies, Option.toList_none, List.append_nil]

/-- One request, whether it succeeds or fails. -/
theorem Synchronised.attempted (sync : Synchronised table before s session)
    (reliable : s.sink.TakesAll) (plain : ∀ earlier ∈ before ++ [request], earlier.IsPlain)
    (framed : ∀ a ∈ s.log [request], a.message.IsDescription → a.body?.isSome = true)
    (other : CallTable) (store : BufferStore σ) :
    ∃ messages behind, session.Hears other store messages
        (heardFrom table before [(request, (s.perform request).1)]) behind ∧
      (∀ message ∈ messages, message ∈ (s.prepare request).1) ∧
      messages.map Message.body? = (s.sentBodies [request]).map some ∧
      Synchronised table (before ++ [request]) (s.perform request).2 behind := by
  rcases sync.hears plain other store with ⟨silent, unheard, after⟩ | ⟨_, _, _, _, heard⟩
  · have none : s.sentBodies [request] = [] := by
      rw [Sender.sentBodies, Sender.log, silent]
      rfl
    rw [heardFrom, heardFrom, List.append_nil, none, unheard, Option.bind_fun_none]
    exact ⟨[], session, .none, List.forall_mem_nil _, rfl, after.performed⟩
  · exact heard.attempted reliable framed

/-- Requests one after another, whether they succeed or fail. -/
theorem Synchronised.attemptedAll (sync : Synchronised table before s session)
    (reliable : s.sink.TakesAll) {requests : List Request}
    (plain : ∀ request ∈ before ++ requests, request.IsPlain)
    (framed : ∀ a ∈ s.log requests, a.message.IsDescription → a.body?.isSome = true)
    (other : CallTable) (store : BufferStore σ) :
    ∃ messages last, session.Hears other store messages
        (heardFrom table before (requests.zip (s.run requests).1)) last ∧
      (∀ message ∈ messages, message.Plain) ∧
      messages.map Message.body? = (s.sentBodies requests).map some ∧
      (s.run requests).2.sink.TakesAll ∧
      Synchronised table (before ++ requests) (s.run requests).2 last := by
  induction requests generalizing before s session with
  | nil =>
    exact ⟨[], session, .none, List.forall_mem_nil _, rfl, reliable, by rwa [List.append_nil]⟩
  | cons request later ih =>
    have split : s.log (request :: later) = s.log [request] ++ (s.perform request).2.log later :=
      s.log_append [request] later
    rw [split, List.forall_mem_append] at framed
    rw [List.append_cons] at plain
    rcases sync.attempted reliable (List.forall_mem_append.1 plain).1 framed.1 other store
      with ⟨first, mid, hears, prepared, bodies, after⟩
    have stays : (s.perform request).2.sink.TakesAll :=
      ((s.attempts_log [request]).of_takesAll reliable).2
    rcases ih after stays plain framed.2 with
      ⟨rest, last, hearsRest, plainRest, bodiesRest, staysLast, afterRest⟩
    refine ⟨first ++ rest, last, ?_, ?_, ?_, staysLast, ?_⟩
    · have both := hears.append hearsRest
      rwa [heardFrom, heardFrom, List.append_nil] at both
    · rw [List.forall_mem_append]
      have plainHere := (List.forall_mem_append.1 plain).1 request
        (List.mem_append_right before List.mem_cons_self)
      exact ⟨fun message mem => (Sender.plain_prepare plainHere (prepared message mem)).1,
        plainRest⟩
    · rw [List.map_append, bodies, bodiesRest, Sender.sentBodies, Sender.sentBodies,
        Sender.sentBodies, split, List.filterMap_append, List.map_append]
    · rw [List.append_cons]
      exact afterRest

/-- What stands in front of the last frame of a request comes to no record. -/
theorem Heard.interrupted {other : CallTable} {store : BufferStore σ} {front : List Message}
    {last : Message} {mid final : Session σ}
    (heard : Heard table before request s session other store front last mid final)
    (reliable : s.sink.TakesAll)
    (framed : ∀ a ∈ s.log [request], a.message.IsDescription → a.body?.isSome = true)
    {bodies : List Bytes} (isPrefix : bodies <+: s.sentBodies [request])
    (strict : bodies ≠ s.sentBodies [request]) :
    ∃ messages behind, session.Hears other store messages [] behind ∧
      (∀ message ∈ messages, message ∈ (s.prepare request).1) ∧
      messages.map Message.body? = bodies.map some := by
  rcases Sender.sentBodies_singleton reliable heard.shape heard.descriptions framed with
    ⟨framedFront, sent, -⟩
  have within : bodies <+: front.filterMap Message.body? := by
    rw [sent] at isPrefix strict
    cases here : last.body? with
    | none =>
      rw [here, Option.toList_none, List.append_nil] at isPrefix
      exact isPrefix
    | some body =>
      rw [here] at isPrefix strict
      exact (List.prefix_concat_iff.1 isPrefix).resolve_left strict
  have quiet := heard.quiet
  rw [← List.take_append_drop bodies.length front] at quiet
  rcases quiet.split with ⟨first, rest, behind, none, hears, -⟩
  rw [(List.append_eq_nil_iff.1 none.symm).1] at hears
  refine ⟨front.take bodies.length, behind, hears, ?_, ?_⟩
  · intro message mem
    rw [heard.shape]
    exact List.mem_append_left _ (List.mem_of_mem_take mem)
  · rw [List.map_take, map_body?_of_framed framedFront, ← List.map_take,
      ← List.prefix_iff_eq_take.1 within]

/-- Likewise for a request that may send nothing. -/
theorem Synchronised.interrupted (sync : Synchronised table before s session)
    (reliable : s.sink.TakesAll) (plain : ∀ earlier ∈ before ++ [request], earlier.IsPlain)
    (framed : ∀ a ∈ s.log [request], a.message.IsDescription → a.body?.isSome = true)
    (other : CallTable) (store : BufferStore σ) {bodies : List Bytes}
    (isPrefix : bodies <+: s.sentBodies [request]) (strict : bodies ≠ s.sentBodies [request]) :
    ∃ messages behind, session.Hears other store messages [] behind ∧
      (∀ message ∈ messages, message ∈ (s.prepare request).1) ∧
      messages.map Message.body? = bodies.map some := by
  rcases sync.hears plain other store with ⟨silent, -, -⟩ | ⟨_, _, _, _, heard⟩
  · have none : s.sentBodies [request] = [] := by
      rw [Sender.sentBodies, Sender.log, silent]
      rfl
    rw [none] at isPrefix strict
    exact absurd (List.prefix_nil.1 isPrefix) strict
  · exact heard.interrupted reliable framed isPrefix strict

end

end CallTrace
