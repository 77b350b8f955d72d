import CallTrace.Proofs.Delivery.Expected
import CallTrace.Proofs.Receiver.Messages

/-!
One request on both sides. A sender and a receiver are `Synchronised` behind some requests if both
have the books that these requests lead to: the sender has marked the indices of all calls, the
receiver knows the first call of each, and each has the process it should have.

`Synchronised.step` says that the messages of one more request are taken, yield the record that is
expected, and leave both sides synchronised.
-/

namespace CallTrace

/-! ## Descriptions -/

/-- What a receiver knows of an index whose first call this is. -/
def SentCall.descriptor (table : CallTable) (call : SentCall) : CallDescriptor where
  name := call.name
  category := (Category.resolve table call.name call.args).name
  args := (Sender.leadingNames ++ call.argNames).map fun name => (name, .default)

/-- Whether the indices that a sender has marked are those of the calls, and a receiver knows the
first call of each. -/
structure Described (table : CallTable) (before : List Request) (marked : List UInt32)
    (schema : Schema) : Prop where
  marked_iff : ∀ index, index.toNat < Sender.capacity →
    (index ∈ marked ↔ (firstCall? before index).isSome)
  known : ∀ index, index.toNat < Sender.capacity →
    schema.get? (Sender.wireIndex index)
      = (firstCall? before index).map (SentCall.descriptor table)
  values : schema.valueTables = .empty
  masks : schema.maskTables = .empty

theorem ofInfo_infoOf (s : Sender) (table : CallTable) (call : SentCall) :
    CallDescriptor.ofInfo table (s.infoOf call.index call.name call.args)
      = call.descriptor s.table := by
  unfold CallDescriptor.ofInfo Sender.infoOf SentCall.descriptor SentCall.argNames
  dsimp only
  rw [Option.getD_some, List.map_map]
  rfl

theorem get?_describe_infoOf (schema : Schema) (s : Sender) (table : CallTable) (call : SentCall)
    (index : UInt32) :
    (schema.describe table (s.infoOf call.index call.name call.args)).get? (Sender.wireIndex index)
      = if call.index = index then some (call.descriptor s.table)
        else schema.get? (Sender.wireIndex index) := by
  rw [Schema.get?, Schema.describe, SortedMap.get?_insert, ofInfo_infoOf]
  by_cases same : call.index = index
  · subst same
    rw [if_pos rfl]
    exact if_pos rfl
  · rw [if_neg same]
    apply if_neg
    intro here
    exact same (Sender.wireIndex_injective here).symm

variable {σ : Type} {table : CallTable} {before : List Request} {request : Request}
  {call : SentCall}

theorem Described.first {s : Sender} {schema : Schema}
    (described : Described s.table before s.described schema) (sent : request.call? = some call)
    (fresh : s.Undescribed call.index) (other : CallTable) :
    Described s.table (before ++ [request]) (call.index :: s.described)
      (schema.describe other (s.infoOf call.index call.name call.args)) := by
  have now := firstCall?_concat_of_call sent before
  have none : firstCall? before call.index = none := by
    apply Option.not_isSome_iff_eq_none.1
    rw [← described.marked_iff call.index fresh.1, ← List.contains_iff_mem]
    exact fresh.2
  refine ⟨?_, ?_, described.values, described.masks⟩
  · intro index small
    rw [List.mem_cons, now, described.marked_iff index small]
    by_cases here : call.index = index
    · subst here
      simp
    · simp [here, Ne.symm here]
  · intro index small
    rw [get?_describe_infoOf, now, described.known index small]
    by_cases here : call.index = index
    · subst here
      simp [none]
    · simp [here]

theorem Described.again {marked : List UInt32} {schema : Schema}
    (described : Described table before marked schema) (sent : request.call? = some call)
    (small : call.index.toNat < Sender.capacity) (mem : call.index ∈ marked) :
    Described table (before ++ [request]) marked schema := by
  rcases Option.isSome_iff_exists.1 ((described.marked_iff call.index small).1 mem)
    with ⟨first, earlier⟩
  have same : firstCall? (before ++ [request]) = firstCall? before := by
    funext index
    rw [firstCall?_concat_of_call sent before]
    by_cases here : call.index = index
    · subst here
      rw [earlier, Option.some_or]
    · rw [if_neg here, Option.or_none]
  refine ⟨?_, ?_, described.values, described.masks⟩
  · rw [same]
    exact described.marked_iff
  · rw [same]
    exact described.known

/-- Nothing changes behind a request that sends no call. -/
theorem Described.silent {marked : List UInt32} {schema : Schema}
    (described : Described table before marked schema) (silent : request.call? = none) :
    Described table (before ++ [request]) marked schema := by
  have same := firstCall?_concat_of_none silent before
  refine ⟨?_, ?_, described.values, described.masks⟩
  · rw [same]
    exact described.marked_iff
  · rw [same]
    exact described.known

/-- A call takes its description in front of its data, if its index has none yet. -/
theorem Described.describe {s : Sender} {session : Session σ}
    (described : Described s.table before s.described session.schema)
    (sent : request.call? = some call) (small : call.index.toNat < Sender.capacity)
    (success : Bool) (result : Value) (other : CallTable) (store : BufferStore σ) :
    ∃ front schema marked,
      s.prepareCall call.index call.name success result call.args
        = (front ++ [.data (s.dataOf call.index success result call.args)],
          { s with described := marked }) ∧
      (∀ message ∈ front, message.Plain) ∧
      session.Takes other store front [] { session with schema } ∧
      Described s.table (before ++ [request]) marked schema := by
  by_cases fresh : s.Undescribed call.index
  · have taken : session.accept other store
          (Message.info (s.infoOf call.index call.name call.args)).received
        = (.ok none, { session with
            schema := session.schema.describe other
              (s.infoOf call.index call.name call.args) }) := rfl
    refine ⟨[.info (s.infoOf call.index call.name call.args)], _, _, if_pos fresh, ?_,
      .single taken, described.first sent fresh other⟩
    intro message mem
    rw [List.mem_singleton.1 mem]
    exact ⟨trivial, trivial⟩
  · have mem : call.index ∈ s.described := by
      by_cases mem : call.index ∈ s.described
      · exact mem
      · exact absurd ⟨small, mt List.contains_iff_mem.1 mem⟩ fresh
    refine ⟨[], session.schema, s.described, if_neg fresh, ?_, .none,
      described.again sent small mem⟩
    intro message mem
    cases mem

/-! ## Data -/

theorem apply_coerce (value : Value) :
    Converter.default.apply (ArgFormat.coerce (ArgFormat.ofValue value) value)
      = value.delivered := by
  cases value <;> rfl

theorem apply_default (raw : Bson) :
    Converter.default.apply raw = Converter.convertDefault raw := by
  cases raw <;> rfl

/-- The values of a call by their names, as they arrive. -/
def SentCall.arrived (call : SentCall) (success : Bool) (result : Value) : NamedValues :=
  ("is_success", .int (if success then 1 else 0)) :: ("retval", result) ::
    call.args.map fun arg => (arg.1, arg.2.delivered)

theorem bind?_dataOf {first : SentCall} (agrees : first.argNames = call.argNames) (s : Sender)
    (success : Bool) (result : Value) :
    (first.descriptor table).bind? (s.dataOf call.index success result call.args).args
      = some (call.arrived success result) := by
  have args : List.zipWith (fun arg raw => (arg.1, Converter.apply arg.2 raw))
        (call.argNames.map fun name => (name, Converter.default))
        (List.zipWith (fun arg format => ArgFormat.coerce format arg.2) call.args
          (ArgFormat.ofArgs call.args))
      = call.args.map fun arg => (arg.1, arg.2.delivered) := by
    unfold SentCall.argNames ArgFormat.ofArgs
    induction call.args with
    | nil => rfl
    | cons arg later ih =>
      simp only [List.map_cons, List.zipWith_cons_cons, apply_coerce, ih]
  have length : (s.dataOf call.index success result call.args).args.length
      = (first.descriptor table).args.length := by
    unfold SentCall.descriptor Sender.dataOf Sender.leadingNames ArgFormat.ofArgs
    rw [agrees]
    simp [SentCall.argNames]
  rw [CallDescriptor.bind?, if_pos length, SentCall.descriptor, agrees, Sender.leadingNames]
  dsimp only
  rw [List.map_append]
  unfold Sender.dataOf
  simp only [List.map_cons, List.map_nil, List.cons_append, List.nil_append,
    List.zipWith_cons_cons, args, apply_default, Value.convertDefault_toBson]
  rfl

theorem itemsReadable_dataOf (s : Sender) (call : SentCall) (success : Bool) (result : Value) :
    Bson.ItemsReadable (s.dataOf call.index success result call.args).args := by
  unfold Sender.dataOf ArgFormat.ofArgs
  dsimp only
  rw [Bson.ItemsReadable, Bson.ItemsReadable]
  refine ⟨trivial, result.readable_toBson, ?_⟩
  induction call.args with
  | nil => trivial
  | cons arg later ih =>
    rw [List.map_cons, List.zipWith_cons_cons, Bson.ItemsReadable]
    refine ⟨?_, ih⟩
    unfold ArgFormat.coerce
    split <;> trivial

theorem takeFirst_cons_self (name : String) (value : Value) (later : NamedValues) :
    takeFirst name ((name, value) :: later) = (some value, later) := if_pos rfl

/-- The data of a call are taken as its name says, with its values as they arrive. -/
theorem acceptData_of_known (session : Session σ) (s : Sender) {first : SentCall}
    (known : session.schema.get? (Sender.wireIndex call.index) = some (first.descriptor table))
    (agrees : first.argNames = call.argNames) (success : Bool) (result : Value) :
    session.acceptData (s.dataOf call.index success result call.args).received
      = if first.name = ProcessInfo.processMarker then
          match ProcessInfo.normalize (call.arrived success result) with
          | .error e => (.error e, session)
          | .ok process => (.ok (.process process), { session with pid := some process.pid })
        else if first.name = ProcessInfo.threadMarker then
          (.ok (session.threadRecord (call.arrived success result)), session)
        else (.ok (session.callRecord (first.descriptor table)
          (s.dataOf call.index success result call.args).received (call.arrived success result)),
          session) := by
  have index : (s.dataOf call.index success result call.args).received.index
      = Sender.wireIndex call.index := rfl
  have bound : (first.descriptor table).bind?
        (s.dataOf call.index success result call.args).received.args
      = some (call.arrived success result) := bind?_dataOf agrees s success result
  rw [Session.acceptData, index, known]
  dsimp only
  rw [bound]
  rfl

/-- The data of a call are taken as the call that its user made. -/
theorem acceptData_dataOf (session : Session σ) (s : Sender) {first : SentCall}
    (known : session.schema.get? (Sender.wireIndex call.index) = some (first.descriptor table))
    (values : session.schema.valueTables = .empty) (masks : session.schema.maskTables = .empty)
    (name : first.name = call.name) (agrees : first.argNames = call.argNames)
    (noProcess : call.name ≠ ProcessInfo.processMarker)
    (noThread : call.name ≠ ProcessInfo.threadMarker) (success : Bool) (result : Value) :
    session.acceptData (s.dataOf call.index success result call.args).received
      = (.ok (.call {
          pid := session.pid
          tid := s.pid
          time := s.clock.elapsed
          api := call.name
          category := (Category.resolve table call.name first.args).name
          status := if success then 1 else 0
          returnValue := result
          arguments := call.args.map fun arg => (arg.1, arg.2.delivered)
          flags := .empty
          stacktrace := []
          uniqhash := .int 0
          lastError := none
          ntStatus := none }), session) := by
  have named : (first.descriptor table).name = call.name := name
  have noFlags : session.schema.hasFlags call.name = false := by
    rw [Schema.hasFlags, values, masks]
    rfl
  rw [acceptData_of_known session s known agrees, name, if_neg noProcess, if_neg noThread,
    Session.callRecord, named, SentCall.arrived, takeFirst_cons_self]
  dsimp only
  rw [takeFirst_cons_self, noFlags, SentCall.descriptor, name]
  rfl

/-- The call that announces a process. -/
def announcement (clock : Clock) (pid ppid : Int64) (path : Option String) : SentCall :=
  ⟨Sender.processIndex, ProcessInfo.processMarker, Sender.processArgs clock pid ppid path⟩

theorem normalize_announcement (clock : Clock) (pid ppid : Int64) (path : Option String)
    (success : Bool) (result : Value) :
    ProcessInfo.normalize ((announcement clock pid ppid path).arrived success result)
      = .ok ⟨pid, ppid, clock.epochMillis.moment, ProcessInfo.fileName (path.getD "")⟩ := by
  have moment : ProcessInfo.epochMoment clock.epochMillis.count = .ok clock.epochMillis.moment := by
    rw [ProcessInfo.epochMoment, EpochMillis.ofMillis?_count]
    rfl
  have layout : ProcessInfo.layout? ((announcement clock pid ppid path).arrived success result)
      = some .epochMillis := rfl
  rw [ProcessInfo.normalize, layout]
  dsimp only
  rw [ProcessInfo.ofLayout]
  simp only [bind, Except.bind, ProcessInfo.intField, ProcessInfo.textField, SentCall.arrived,
    Value.delivered, announcement, Sender.processArgs, List.map_cons, List.map_nil,
    List.lookup_cons, String.reduceBEq, BEq.rfl, Option.bind_some, Value.asInt?, moment]
  rfl

theorem acceptData_announcement (session : Session σ) (s : Sender) {first : SentCall}
    {clock : Clock} {pid ppid : Int64} {path : Option String}
    (known : session.schema.get? (Sender.wireIndex (announcement clock pid ppid path).index)
      = some (first.descriptor table))
    (name : first.name = (announcement clock pid ppid path).name)
    (agrees : first.argNames = (announcement clock pid ppid path).argNames) (success : Bool)
    (result : Value) :
    session.acceptData (s.dataOf (announcement clock pid ppid path).index success result
        (announcement clock pid ppid path).args).received
      = (.ok (.process ⟨pid, ppid, clock.epochMillis.moment, ProcessInfo.fileName (path.getD "")⟩),
          { session with pid := some pid }) := by
  have marker : first.name = ProcessInfo.processMarker := name
  rw [acceptData_of_known session s known agrees, if_pos marker, normalize_announcement]

/-! ## One request -/

/-- Whether both sides have the books to which some requests lead. -/
structure Synchronised (table : CallTable) (before : List Request) (s : Sender)
    (session : Session σ) : Prop where
  table_eq : s.table = table
  sender : s.pid = senderPid before
  receiver : session.pid = announcedPid? before
  described : Described table before s.described session.schema

theorem Synchronised.start (sink : Sink) (table : CallTable) (clock : Clock) (kept : σ) :
    Synchronised table [] (Sender.start sink table clock) (Session.initial kept) where
  table_eq := rfl
  sender := rfl
  receiver := rfl
  described := by
    refine ⟨?_, fun index small => rfl, rfl, rfl⟩
    intro index small
    simp [Sender.start, firstCall?, calls]

/-- Whether the messages of a request are taken, yield the record that is expected, and leave both
sides with the books that they should have. -/
structure Served (table : CallTable) (before : List Request) (request : Request) (s : Sender)
    (session : Session σ) (other : CallTable) (store : BufferStore σ) (last : Session σ) :
    Prop where
  plain : ∀ message ∈ (s.prepare request).1, message.Plain
  takes : session.Takes other store (s.prepare request).1
    (expected? table before request).toList last
  kept : last.kept = keptBehind store session.kept request
  after : Synchronised table (before ++ [request]) (s.prepare request).2 last

/-- A call is served if its data are taken by a receiver that knows its index. -/
theorem Served.of_call {s t : Sender} {session : Session σ} {success : Bool} {result : Value}
    {other : CallTable} {store : BufferStore σ} (sent : request.call? = some call)
    (prepared : s.prepare request = t.prepareCall call.index call.name success result call.args)
    (described : Described t.table before t.described session.schema)
    (small : call.index.toNat < Sender.capacity)
    (sender : t.pid = senderPid (before ++ [request]))
    (kept : keptBehind store session.kept request = session.kept)
    (accepted : ∀ schema, schema.get? (Sender.wireIndex call.index)
        = some (((firstCall? before call.index).getD call).descriptor t.table) →
      schema.valueTables = .empty → schema.maskTables = .empty →
      Session.accept other store { session with schema }
          (Message.data (t.dataOf call.index success result call.args)).received
        = (.ok (expected? t.table before request),
            { session with schema, pid := announcedPid? (before ++ [request]) })) :
    ∃ last, Served t.table before request s session other store last := by
  rcases described.describe sent small success result other store
    with ⟨front, schema, marked, shape, plain, takes, after⟩
  have known := after.known call.index small
  rw [firstCall?_concat_self sent, Option.map_some] at known
  rw [shape] at prepared
  refine ⟨{ session with schema, pid := announcedPid? (before ++ [request]) }, ?_, ?_,
    kept.symm, ?_⟩
  · rw [prepared]
    intro message mem
    rcases List.mem_append.1 mem with mem | mem
    · exact plain message mem
    · rw [List.mem_singleton.1 mem]
      exact itemsReadable_dataOf t call success result
  · rw [prepared]
    exact takes.append (.single (accepted schema known after.values after.masks))
  · rw [prepared]
    exact ⟨rfl, sender, rfl, after⟩

theorem Synchronised.emit {s : Sender} {session : Session σ} {clock : Clock} {index : UInt32}
    {name : String} {success : Bool} {result : Value} {args : NamedValues}
    (sync : Synchronised table before s session)
    (regular : Regular (before ++ [⟨clock, .emit index name success result args⟩]))
    (other : CallTable) (store : BufferStore σ) :
    ∃ last, Served table before ⟨clock, .emit index name success result args⟩ s session other store
      last := by
  obtain ⟨rfl, sender, receiver, described⟩ := sync
  have sent : Request.call? ⟨clock, .emit index name success result args⟩
      = some ⟨index, name, args⟩ := rfl
  rcases regular.unreserved _ (List.mem_append_right before List.mem_cons_self)
    with ⟨below, noProcess, noThread⟩
  rcases regular.agrees (mem_calls_concat sent before) (firstCall?_concat_self sent before)
    with ⟨sameName, sameArgs⟩
  apply Served.of_call (t := { s with clock }) sent rfl described (Nat.lt_trans below (by decide))
  · rw [senderPid_concat]
    exact sender
  · rfl
  · intro schema known values masks
    have data := acceptData_dataOf { session with schema } { s with clock } known values masks
      sameName sameArgs noProcess noThread success result
    rw [Message.received, Session.accept, data, announcedPid?_concat, expected?]
    dsimp only
    rw [callRecord, ← receiver, ← sender]
    rfl

theorem Synchronised.announce {s : Sender} {session : Session σ} {clock : Clock}
    {pid ppid : Int64} {path : Option String} (sync : Synchronised table before s session)
    (regular : Regular (before ++ [⟨clock, .announce pid ppid path⟩])) (other : CallTable)
    (store : BufferStore σ) :
    ∃ last, Served table before ⟨clock, .announce pid ppid path⟩ s session other store last := by
  obtain ⟨rfl, sender, receiver, described⟩ := sync
  have sent : Request.call? ⟨clock, .announce pid ppid path⟩
      = some (announcement clock pid ppid path) := rfl
  rcases regular.agrees (mem_calls_concat sent before) (firstCall?_concat_self sent before)
    with ⟨sameName, sameArgs⟩
  have small : (announcement clock pid ppid path).index.toNat < Sender.capacity :=
    show Sender.processIndex.toNat < Sender.capacity by decide
  apply Served.of_call (t := { s with clock, pid }) sent rfl described small
  · rw [senderPid_concat]
    rfl
  · rfl
  · intro schema known values masks
    have data := acceptData_announcement { session with schema } { s with clock, pid } known
      sameName sameArgs true (.int 0)
    rw [Message.received, Session.accept, data, announcedPid?_concat]
    rfl

/-- A request that sends no call changes the processes at most. -/
theorem Synchronised.silent {s t : Sender} {session last : Session σ}
    (sync : Synchronised table before s session) (silent : request.call? = none)
    (tables : t.table = s.table) (sender : t.pid = request.pid?.getD s.pid)
    (receiver : last.pid = request.announced?.or session.pid) (marked : t.described = s.described)
    (schema : last.schema = session.schema) :
    Synchronised table (before ++ [request]) t last := by
  refine ⟨tables.trans sync.table_eq, ?_, ?_, ?_⟩
  · rw [senderPid_concat, ← sync.sender, sender]
  · rw [announcedPid?_concat, ← sync.receiver, receiver]
  · rw [marked, schema]
    exact sync.described.silent silent

/-- One more request is served. -/
theorem Synchronised.step {s : Sender} {session : Session σ}
    (sync : Synchronised table before s session) (regular : Regular (before ++ [request]))
    (other : CallTable) (store : BufferStore σ) :
    ∃ last, Served table before request s session other store last := by
  obtain ⟨clock, operation⟩ := request
  cases operation with
  | emit index name success result args => exact sync.emit regular other store
  | announce pid ppid path => exact sync.announce regular other store
  | debug text =>
    have taken : session.accept other store (Message.debug s.pid clock.elapsed text)
        = (.ok (some (.debug (senderPid before) clock.elapsed text)), session) := by
      rw [Session.accept, sync.sender]
    refine ⟨session, ?_, .single taken, rfl, sync.silent rfl rfl rfl rfl rfl rfl⟩
    intro message mem
    rw [List.mem_singleton.1 mem]
    trivial
  | buffer payload =>
    have taken : session.accept other store (Message.buffer payload (checksum payload))
        = (.ok none, { session with
            kept := (store.keep session.kept (checksum payload) payload).2 }) := by
      rw [Session.accept, verify, if_pos rfl]
    refine ⟨_, ?_, .single taken, rfl, sync.silent rfl rfl rfl rfl rfl rfl⟩
    intro message mem
    rw [List.mem_singleton.1 mem]
    trivial
  | setPid pid =>
    refine ⟨session, ?_, .none, rfl, sync.silent rfl rfl rfl rfl rfl rfl⟩
    intro message mem
    cases mem

end CallTrace
