import CallTrace.Proofs.Delivery.Limit

/-!
The index of announcements. Nothing keeps a call from its use, so announcements share it with calls:
whoever uses it first describes it, and all that follow are read under that description. `Holder`
says who that is behind some requests, `Held` what both sides then know of the index, and
`Held.step` what one more request comes to.

Behind an announcement, a call of the index is read as one if it has as many arguments, and ends the
stream if their values are none of an announcement (`acceptData_under_announcement`).
-/

namespace CallTrace

variable {σ : Type}

/-! ## Values of announcements -/

/-- The names of the arguments of an announcement. -/
def announcedNames : List String :=
  ["TimeStamp", "ProcessIdentifier", "ParentProcessIdentifier", "ModulePath"]

/-- Whether values read as an announcement: a time that the calendar holds, two integers, and
anything but an integer. -/
def readsAsProcess : List Value → Bool
  | [time, pid, ppid, path] =>
    (time.asInt?.bind fun millis => Moment.ofMillis? millis.toInt).isSome &&
      pid.asInt?.isSome && ppid.asInt?.isSome && path.asInt?.isNone
  | _ => false

theorem readsAsProcess_length {values : List Value} (reads : readsAsProcess values = true) :
    values.length = 4 := by
  unfold readsAsProcess at reads
  split at reads
  · rfl
  · cases reads

theorem Value.asInt?_delivered (value : Value) : value.delivered.asInt? = value.asInt? := by
  cases value <;> rfl

theorem Value.delivered_of_asInt?_eq_some {value : Value} {n : Int64}
    (integer : value.asInt? = some n) : value.delivered = .int n := by
  cases value with
  | null => cases integer
  | bool b => exact congrArg Value.int (Option.some.inj integer)
  | int n => exact congrArg Value.int (Option.some.inj integer)
  | float x => cases integer
  | text s => cases integer
  | list items => cases integer

theorem Value.delivered_of_asInt?_eq_none {value : Value} (other : value.asInt? = none) :
    value.delivered = .text value.display := by
  cases value with
  | null => rfl
  | bool b => cases other
  | int n => cases other
  | float x => rfl
  | text s => rfl
  | list items => rfl

namespace ProcessInfo

section

variable {args : NamedValues} {name : String} {time pid ppid path : Value}

theorem intField_delivered {value : Value}
    (here : List.lookup name args = some value.delivered) :
    intField args name = value.asInt?.elim (.error (.badField name)) .ok := by
  rw [intField, here, Option.bind_some, Value.asInt?_delivered]
  cases value.asInt? <;> rfl

theorem textField_delivered {value : Value}
    (here : List.lookup name args = some value.delivered) :
    textField args name
      = if value.asInt?.isNone then .ok value.display else .error (.badField name) := by
  rw [textField, here]
  cases other : value.asInt? with
  | none =>
    rw [Value.delivered_of_asInt?_eq_none other]
    rfl
  | some n =>
    rw [Value.delivered_of_asInt?_eq_some other]
    rfl

/-- Values that have arrived are an announcement exactly if they read as one. -/
theorem normalize_delivered_iff (layout : layout? args = some .epochMillis)
    (stamp : List.lookup "TimeStamp" args = some time.delivered)
    (own : List.lookup "ProcessIdentifier" args = some pid.delivered)
    (parent : List.lookup "ParentProcessIdentifier" args = some ppid.delivered)
    (file : List.lookup "ModulePath" args = some path.delivered) :
    (∃ info, normalize args = .ok info) ↔ readsAsProcess [time, pid, ppid, path] = true := by
  rw [normalize, layout]
  dsimp only
  rw [ofLayout, intField_delivered stamp, intField_delivered own, intField_delivered parent,
    textField_delivered file, readsAsProcess]
  -- The fields are read in the order of the layout, and the first that is wrong decides.
  cases time.asInt? with
  | none => simp [bind, Except.bind]
  | some millis =>
    dsimp only [bind, Except.bind, Option.bind_some, Option.elim_some]
    rw [epochMoment]
    cases Moment.ofMillis? millis.toInt with
    | none => simp [momentField]
    | some moment =>
      dsimp only [momentField]
      cases pid.asInt? with
      | none => simp
      | some own =>
        cases ppid.asInt? with
        | none => simp
        | some parent =>
          cases path.asInt? with
          | none => simp [pure, Except.pure]
          | some n => simp

end

theorem isFatal_of_normalize_error {args : NamedValues} {e : DecodeError}
    (failed : normalize args = .error e) : e.isFatal = true := by
  rcases normalize_error failed with rfl | ⟨name, rfl⟩ <;> rfl

end ProcessInfo

theorem normalize_arrived_iff {call : SentCall} (named : call.argNames = announcedNames)
    (success : Bool) (result : Value) :
    (∃ info, ProcessInfo.normalize (call.arrived success result) = .ok info)
      ↔ readsAsProcess (call.args.map Prod.snd) = true := by
  rcases call with ⟨index, name, args⟩
  rcases List.map_eq_cons_iff.1 named with ⟨⟨_, time⟩, _, rfl, rfl, second⟩
  rcases List.map_eq_cons_iff.1 second with ⟨⟨_, pid⟩, _, rfl, rfl, third⟩
  rcases List.map_eq_cons_iff.1 third with ⟨⟨_, ppid⟩, _, rfl, rfl, fourth⟩
  rcases List.map_eq_cons_iff.1 fourth with ⟨⟨_, path⟩, _, rfl, rfl, none⟩
  obtain rfl := List.map_eq_nil_iff.1 none
  exact ProcessInfo.normalize_delivered_iff rfl rfl rfl rfl rfl

-- A truth value is read as an integer, and a path may be anything else.
example : readsAsProcess [.int 1, .bool true, .int 3, .null] = true := by decide

/-! ## Data -/

/-- Whether no announcement is known under an index. -/
def Session.Foreign (session : Session σ) (index : UInt32) : Prop :=
  ∀ d, session.schema.get? (Sender.wireIndex index) = some d → d.name ≠ ProcessInfo.processMarker

section

variable {table other : CallTable} {store : BufferStore σ} {session : Session σ} {s : Sender}
  {call first : SentCall}

theorem Session.hears_of_taken {data : CallData} {record : Record} {last : Session σ}
    (taken : session.acceptData data.received = (.ok record, last)) :
    session.Hears other store [.data data] [record] last := by
  change session.Hears other store [.data data] (some record).toList last
  apply Session.Hears.single
  rw [Message.received, Session.accept_data, taken]
  rfl

theorem Session.accept_of_refused {data : CallData} {e : DecodeError}
    (refused : session.acceptData data.received = (.error e, session)) :
    session.accept other store (Message.data data).received = (.error e, session) := by
  rw [Message.received, Session.accept_data, refused]
  rfl

/-- Data under such an index are no announcement, and do not end the stream. -/
theorem acceptData_of_foreign {data : CallData}
    (foreign : ∀ d, session.schema.get? data.index = some d → d.name ≠ ProcessInfo.processMarker) :
    (∃ record, session.acceptData data = (.ok record, session) ∧
      ∀ info, record ≠ .process info) ∨
    ∃ e, session.acceptData data = (.error e, session) ∧ e.isFatal = false := by
  unfold Session.acceptData
  cases known : session.schema.get? data.index with
  | none => exact .inr ⟨_, rfl, rfl⟩
  | some d =>
    dsimp only
    cases d.bind? data.args with
    | none => exact .inr ⟨_, rfl, rfl⟩
    | some args =>
      dsimp only
      rw [if_neg (foreign d known)]
      by_cases thread : d.name = ProcessInfo.threadMarker
      · rw [if_pos thread, Session.threadRecord]
        exact .inl ⟨_, rfl, fun _ same => by cases same⟩
      · rw [if_neg thread, Session.callRecord]
        exact .inl ⟨_, rfl, fun _ same => by cases same⟩

theorem hears_data_of_foreign (foreign : session.Foreign call.index) (s : Sender) (success : Bool)
    (result : Value) (other : CallTable) (store : BufferStore σ) :
    ∃ records, session.Hears other store [.data (s.dataOf call.index success result call.args)]
        records session ∧ ∀ info, .process info ∉ records := by
  rcases @acceptData_of_foreign σ session (s.dataOf call.index success result call.args).received
    foreign with ⟨record, taken, silent⟩ | ⟨e, refused, mild⟩
  · exact ⟨[record], Session.hears_of_taken taken,
      fun info mem => silent info (List.mem_singleton.1 mem).symm⟩
  · exact ⟨[], .refused (Session.accept_of_refused refused) mild .none, fun _ => List.not_mem_nil⟩

/-- What data under the description of an announcement come to. -/
inductive ReadAsProcess (session : Session σ) (data : CallData) (values : List Value) : Prop
  | taken {info : ProcessInfo} : readsAsProcess values = true →
    session.acceptData data = (.ok (.process info), { session with pid := some info.pid }) →
    ReadAsProcess session data values
  | dropped {e : DecodeError} : values.length ≠ 4 →
    session.acceptData data = (.error e, session) → e.isFatal = false →
    ReadAsProcess session data values
  | ended {e : DecodeError} : values.length = 4 → readsAsProcess values = false →
    session.acceptData data = (.error e, session) → e.isFatal = true →
    ReadAsProcess session data values

/-- The number of the arguments decides whether data are read at all, and their values how. -/
theorem acceptData_under_announcement (name : first.name = ProcessInfo.processMarker)
    (named : first.argNames = announcedNames)
    (known : session.schema.get? (Sender.wireIndex call.index) = some (first.descriptor table))
    (s : Sender) (success : Bool) (result : Value) :
    ReadAsProcess session (s.dataOf call.index success result call.args).received
      (call.args.map Prod.snd) := by
  have four : first.args.length = 4 := by
    have length := congrArg List.length named
    rwa [SentCall.argNames, List.length_map] at length
  by_cases length : call.args.length = first.args.length
  · have names := SentCall.argNames_readAs length
    have values : (call.readAs first).args.map Prod.snd = call.args.map Prod.snd :=
      List.map_snd_zip (Nat.le_of_eq (by rw [named, List.length_map, length, four]; rfl))
    have data := @acceptData_of_known σ table (call.readAs first) session s first known names.symm
      success result
    rw [if_pos name] at data
    have index : (call.readAs first).index = call.index := rfl
    rw [index, dataOf_readAs length] at data
    have arrived := normalize_arrived_iff (names.trans named) success result
    rw [values] at arrived
    cases read : ProcessInfo.normalize ((call.readAs first).arrived success result) with
    | ok info =>
      rw [read] at data arrived
      exact .taken (arrived.1 ⟨info, rfl⟩) data
    | error e =>
      rw [read] at data arrived
      refine .ended ?_ ?_ data (ProcessInfo.isFatal_of_normalize_error read)
      · rw [List.length_map, length, four]
      · refine Bool.eq_false_iff.2 fun reads => ?_
        rcases arrived.2 reads with ⟨_, ⟨⟩⟩
  · rcases acceptData_of_differ (s := s) known length success result with ⟨e, refused, mild⟩
    refine .dropped ?_ refused mild
    rwa [List.length_map, ← four]

/-! ## Calls of the user -/

theorem accept_infoOf (session : Session σ) (s : Sender) (index : UInt32) (name : String)
    (args : NamedValues) (other : CallTable) (store : BufferStore σ) :
    session.accept other store (Message.info (s.infoOf index name args)).received
      = (.ok none, { session with
          schema := session.schema.describe other (s.infoOf index name args) }) := rfl

/-- The description of a call that is no announcement makes none of any index. -/
theorem foreign_describe (own : call.name ≠ ProcessInfo.processMarker) (other : CallTable)
    {index : UInt32} (foreign : session.Foreign index) :
    Session.Foreign { session with
      schema := session.schema.describe other (s.infoOf call.index call.name call.args) }
      index := by
  intro d known
  dsimp only at known
  rw [get?_describe_infoOf] at known
  by_cases here : call.index = index
  · rw [if_pos here] at known
    cases known
    exact own
  · rw [if_neg here] at known
    exact foreign d known

/-- Whether some messages yield no announcement, and leave what is known of indices as it is but for
one of them, which they make foreign if anything. -/
structure Quiet (session : Session σ) (other : CallTable) (store : BufferStore σ)
    (messages : List Message) (index : UInt32) (records : List Record) (last : Session σ) :
    Prop where
  hears : session.Hears other store messages records last
  silent : ∀ info, .process info ∉ records
  foreign : ∀ i, session.Foreign i → last.Foreign i
  same : ∀ i, i ≠ index →
    last.schema.get? (Sender.wireIndex i) = session.schema.get? (Sender.wireIndex i)

/-- A call under an index of which no announcement is known is none, however much of it is sent. -/
theorem quiet_prepareCall (foreign : session.Foreign call.index)
    (own : call.name ≠ ProcessInfo.processMarker) (success : Bool) (result : Value)
    (other : CallTable) (store : BufferStore σ) {sent : List Message}
    (isPrefix : sent <+: (s.prepareCall call.index call.name success result call.args).1) :
    ∃ records last, Quiet session other store sent call.index records last := by
  have data : ∀ {mid : Session σ} {sent : List Message}, mid.Foreign call.index →
      sent <+: [.data (s.dataOf call.index success result call.args)] →
      ∃ records, mid.Hears other store sent records mid ∧ ∀ info, .process info ∉ records := by
    intro mid sent foreign isPrefix
    rcases List.prefix_cons_iff.1 isPrefix with rfl | ⟨rest, rfl, none⟩
    · exact ⟨[], .none, fun _ => List.not_mem_nil⟩
    · rw [List.prefix_nil.1 none]
      exact hears_data_of_foreign foreign s success result other store
  unfold Sender.prepareCall at isPrefix
  split at isPrefix
  · rcases List.prefix_cons_iff.1 isPrefix with rfl | ⟨rest, rfl, within⟩
    · exact ⟨[], session, .none, fun _ => List.not_mem_nil, fun _ => id, fun _ _ => rfl⟩
    · rcases data (foreign_describe (s := s) own other foreign) within with
        ⟨records, hears, silent⟩
      refine ⟨records, _, .taken (accept_infoOf ..) hears, silent,
        fun i => foreign_describe own other, fun i apart => ?_⟩
      dsimp only
      rw [get?_describe_infoOf, if_neg (Ne.symm apart)]
  · rcases data foreign isPrefix with ⟨records, hears, silent⟩
    exact ⟨records, session, hears, silent, fun _ => id, fun _ _ => rfl⟩

end

/-! ## Who holds the index -/

/-- Who holds the index of announcements: nobody yet, announcements, or a call of the user; a stream
may also have ended by a call that was read as an announcement. -/
inductive Holder where
  | free
  | announcements
  | call
  | ended
  deriving DecidableEq, Repr

namespace Holder

/-- Whether a request arrives as an announcement if it succeeds. -/
def admits (holder : Holder) (request : Request) : Bool :=
  match request.operation with
  | .announce .. => holder = .free || holder = .announcements
  | .emit index _ _ _ args =>
    index = Sender.processIndex && holder = .announcements && readsAsProcess (args.map Prod.snd)
  | _ => false

/-- The holder behind a request that succeeds or fails. The first call of the index takes it in
either case. -/
def next (holder : Holder) (request : Request) (ok : Bool) : Holder :=
  match holder, request.operation with
  | .free, .announce .. => .announcements
  | .free, .emit index .. => if index = Sender.processIndex then .call else .free
  | .announcements, .emit index _ _ _ args =>
    if index = Sender.processIndex && ok && args.length = 4 &&
      !readsAsProcess (args.map Prod.snd) then .ended
    else .announcements
  | holder, _ => holder

theorem next_ended (request : Request) (ok : Bool) : next .ended request ok = .ended := by
  rcases request with ⟨clock, operation⟩
  cases operation <;> rfl

theorem next_emit_of_ne {index : UInt32} (apart : index ≠ Sender.processIndex) (holder : Holder)
    (clock : Clock) (name : String) (success : Bool) (result : Value) (args : NamedValues)
    (ok : Bool) : holder.next ⟨clock, .emit index name success result args⟩ ok = holder := by
  cases holder with
  | free => exact if_neg apart
  | announcements => simp [next, apart]
  | call => rfl
  | ended => rfl

theorem next_of_silent {request : Request} (silent : request.call? = none) (holder : Holder)
    (ok : Bool) : holder.next request ok = holder := by
  rcases request with ⟨clock, operation⟩
  cases operation with
  | emit index name success result args => cases silent
  | announce pid ppid path => cases silent
  | debug text => cases holder <;> rfl
  | buffer payload => cases holder <;> rfl
  | setPid pid => cases holder <;> rfl

end Holder

/-- Whether a call has a name of its own, and not one of announcements. -/
def Request.OwnName (request : Request) : Prop :=
  match request.operation with
  | .emit _ name _ _ _ => name ≠ ProcessInfo.processMarker ∧ name ≠ ProcessInfo.threadMarker
  | _ => True

instance (request : Request) : Decidable request.OwnName :=
  match request with
  | ⟨_, .emit ..⟩ => inferInstanceAs (Decidable (_ ∧ _))
  | ⟨_, .announce ..⟩ => .isTrue trivial
  | ⟨_, .debug _⟩ => .isTrue trivial
  | ⟨_, .buffer _⟩ => .isTrue trivial
  | ⟨_, .setPid _⟩ => .isTrue trivial

/-- Whether an announcement is known under its index. -/
def Session.KnowsAnnouncement (session : Session σ) : Prop :=
  ∃ (table : CallTable) (first : SentCall), first.name = ProcessInfo.processMarker ∧
    first.argNames = announcedNames ∧
    session.schema.get? (Sender.wireIndex Sender.processIndex) = some (first.descriptor table)

/-- Whether both sides have the books to which the holder of the index leads. -/
structure Held (holder : Holder) (s : Sender) (session : Session σ) : Prop where
  others : ∀ index, index ≠ Sender.processIndex → session.Foreign index
  marked : Sender.processIndex ∈ s.described ↔ holder ≠ .free
  foreign : holder ≠ .announcements → session.Foreign Sender.processIndex
  known : holder = .announcements → session.KnowsAnnouncement

/-- Whether the records of a request, and the process behind it, are those that its holder admits:
an announcement that succeeds and is admitted is its record, and nothing else has a record of an
announcement but a call that is admitted as one. -/
structure Arrival (holder : Holder) (request : Request) (ok : Bool) (records : List Record)
    (pid : Option Int64) : Prop where
  process_iff : (∃ info, .process info ∈ records) ↔ ok = true ∧ holder.admits request = true
  announced : ∀ own parent path, request.operation = .announce own parent path → ok = true →
    holder.admits request = true →
    records = [.process ⟨own, parent, request.clock.epochMillis.moment,
      ProcessInfo.fileName (path.getD "")⟩] ∧ pid = some own

/-- How the messages of a request pass that are sent: they are heard, and both sides keep to the
holder behind the request, or the one message that is sent ends the stream. -/
inductive Handled (holder : Holder) (request : Request) (ok : Bool) (t : Sender)
    (session : Session σ) (other : CallTable) (store : BufferStore σ) (sent : List Message) : Prop
  | heard {records : List Record} {last : Session σ} :
    session.Hears other store sent records last → holder.next request ok ≠ .ended →
    Held (holder.next request ok) t last → Arrival holder request ok records last.pid →
    Handled holder request ok t session other store sent
  | ended {message : Message} {e : DecodeError} :
    sent = [message] → session.accept other store message.received = (.error e, session) →
    e.isFatal = true → holder.next request ok = .ended →
    Arrival holder request ok [] session.pid →
    Handled holder request ok t session other store sent

section

variable {holder : Holder} {request : Request} {s : Sender} {session : Session σ}
  {sent unsent : List Message}

theorem Arrival.none {ok : Bool} {records : List Record} {pid : Option Int64}
    (silent : ∀ info, .process info ∉ records)
    (unadmitted : ¬ (ok = true ∧ holder.admits request = true)) :
    Arrival holder request ok records pid where
  process_iff := iff_of_false (fun ⟨info, mem⟩ => silent info mem) unadmitted
  announced := fun _ _ _ _ succeeds admitted => absurd ⟨succeeds, admitted⟩ unadmitted

theorem Session.KnowsAnnouncement.congr {last : Session σ} (knows : session.KnowsAnnouncement)
    (same : last.schema = session.schema) : last.KnowsAnnouncement := by
  rcases knows with ⟨table, first, name, named, known⟩
  exact ⟨table, first, name, named, by rwa [same]⟩

/-- The books are in the marks of the sender and in what the receiver knows of indices. -/
theorem Held.congr {t : Sender} {last : Session σ} (held : Held holder s session)
    (marked : t.described = s.described) (same : last.schema = session.schema) :
    Held holder t last where
  others := fun index apart d known => held.others index apart d (by rwa [← same])
  marked := by rw [marked]; exact held.marked
  foreign := fun nobody d known => held.foreign nobody d (by rwa [← same])
  known := fun announced => (held.known announced).congr same

theorem Handled.kept {ok : Bool} {t : Sender} {other : CallTable} {store : BufferStore σ}
    {records : List Record} {last : Session σ} (next : holder.next request ok = holder)
    (going : holder ≠ .ended) (held : Held holder t last)
    (hears : session.Hears other store sent records last)
    (arrival : Arrival holder request ok records last.pid) :
    Handled holder request ok t session other store sent :=
  .heard hears (by rwa [next]) (by rwa [next]) arrival

theorem mem_described_prepareCall {index i : UInt32} {name : String} {success : Bool}
    {result : Value} {args : NamedValues} :
    i ∈ (s.prepareCall index name success result args).2.described
      ↔ i ∈ s.described ∨ i = index ∧ index.toNat < Sender.capacity := by
  unfold Sender.prepareCall
  split
  · next fresh => simp [fresh.1, or_comm]
  · next marked =>
    have known : index.toNat < Sender.capacity → index ∈ s.described := by
      intro small
      by_cases mem : index ∈ s.described
      · exact mem
      · exact absurd ⟨small, mt List.contains_iff_mem.1 mem⟩ marked
    refine ⟨.inl, ?_⟩
    rintro (mem | ⟨rfl, small⟩)
    · exact mem
    · exact known small

section

variable {other : CallTable} {store : BufferStore σ} {messages : List Message}
  {records : List Record} {last : Session σ} {index : UInt32} {name : String} {success : Bool}
  {result : Value} {args : NamedValues}

/-- A quiet call of the index itself leaves it to calls. -/
theorem Held.take (held : Held holder s session) (nobody : holder ≠ .announcements)
    (quiet : Quiet session other store messages Sender.processIndex records last) :
    Held .call (s.prepareCall Sender.processIndex name success result args).2 last where
  others := fun i apart => quiet.foreign i (held.others i apart)
  marked := by
    have small : Sender.processIndex.toNat < Sender.capacity := by decide
    rw [mem_described_prepareCall]
    exact iff_of_true (.inr ⟨rfl, small⟩) nofun
  foreign := fun _ => quiet.foreign _ (held.foreign nobody)
  known := nofun

/-- A quiet call of another index leaves the index to its holder. -/
theorem Held.pass (held : Held holder s session) (apart : index ≠ Sender.processIndex)
    (quiet : Quiet session other store messages index records last) :
    Held holder (s.prepareCall index name success result args).2 last where
  others := fun i apart => quiet.foreign i (held.others i apart)
  marked := by
    rw [mem_described_prepareCall, ← held.marked]
    exact or_iff_left fun both => apart both.1.symm
  foreign := fun nobody => quiet.foreign _ (held.foreign nobody)
  known := by
    intro announced
    rcases held.known announced with ⟨table, first, name, named, known⟩
    exact ⟨table, first, name, named, (quiet.same _ (Ne.symm apart)).trans known⟩

end

/-- A call under an index of which no announcement is known leaves announcements alone. -/
theorem Held.emit_foreign (held : Held holder s session) (going : holder ≠ .ended) {clock : Clock}
    {index : UInt32} {name : String} {success : Bool} {result : Value} {args : NamedValues}
    (foreign : session.Foreign index) (own : name ≠ ProcessInfo.processMarker)
    (apart : ¬ (index = Sender.processIndex ∧ holder = .announcements))
    (shape : (s.prepare ⟨clock, .emit index name success result args⟩).1 = sent ++ unsent)
    (other : CallTable) (store : BufferStore σ) :
    Handled holder ⟨clock, .emit index name success result args⟩ unsent.isEmpty
      (s.prepare ⟨clock, .emit index name success result args⟩).2 session other store sent := by
  have held : Held holder { s with clock } session := held.congr rfl rfl
  rcases @quiet_prepareCall σ session { s with clock } ⟨index, name, args⟩ foreign own success
    result other store sent ⟨unsent, shape.symm⟩ with ⟨records, last, quiet⟩
  have arrival : Arrival holder ⟨clock, .emit index name success result args⟩ unsent.isEmpty
      records last.pid := by
    refine .none quiet.silent ?_
    rintro ⟨-, admitted⟩
    simp only [Holder.admits, Bool.and_eq_true, decide_eq_true_eq] at admitted
    exact apart admitted.1
  -- Only a call of the index itself can give it another holder.
  by_cases here : index = Sender.processIndex
  · have taken : holder.next ⟨clock, .emit index name success result args⟩ unsent.isEmpty
        = .call := by
      cases holder with
      | free => exact if_pos here
      | announcements => exact absurd ⟨here, rfl⟩ apart
      | call => rfl
      | ended => exact absurd rfl going
    subst here
    have nobody : holder ≠ .announcements := fun announced => apart ⟨rfl, announced⟩
    refine .heard quiet.hears (by rw [taken]; nofun) ?_ arrival
    rw [taken]
    exact held.take nobody quiet
  · exact .kept (Holder.next_emit_of_ne here ..) going (held.pass here quiet) quiet.hears arrival

/-- A call of the index of announcements is read as one if it has as many arguments. -/
theorem Held.emit_announced (held : Held .announcements s session) {clock : Clock} {name : String}
    {success : Bool} {result : Value} {args : NamedValues}
    (shape : (s.prepare ⟨clock, .emit Sender.processIndex name success result args⟩).1
      = sent ++ unsent) (other : CallTable) (store : BufferStore σ) :
    Handled .announcements ⟨clock, .emit Sender.processIndex name success result args⟩
      unsent.isEmpty
      (s.prepare ⟨clock, .emit Sender.processIndex name success result args⟩).2 session other store
      sent := by
  have mem := held.marked.2 nofun
  -- The index is marked, so its data go without a description of their own.
  have prepared : s.prepare ⟨clock, .emit Sender.processIndex name success result args⟩
      = ([.data (Sender.dataOf { s with clock } Sender.processIndex success result args)],
        { s with clock }) := by
    refine if_neg ?_
    rintro ⟨-, unmarked⟩
    exact unmarked (List.contains_iff_mem.2 mem)
  have books : ∀ {last : Session σ}, last.schema = session.schema →
      Held .announcements { s with clock } last := held.congr rfl
  rw [prepared] at shape ⊢
  rcases List.singleton_eq_append_iff.1 shape with ⟨rfl, rfl⟩ | ⟨rfl, rfl⟩
  · exact .heard .none nofun (books rfl) (.none (fun _ => List.not_mem_nil) (by rintro ⟨⟨⟩, -⟩))
  · rw [List.isEmpty_nil]
    rcases held.known rfl with ⟨table, first, named, names, known⟩
    have read := @acceptData_under_announcement σ table session ⟨Sender.processIndex, name, args⟩
      first named names known { s with clock } success result
    cases read with
    | @taken info reads taken =>
      have next : Holder.next .announcements
          ⟨clock, .emit Sender.processIndex name success result args⟩ true = .announcements := by
        simp [Holder.next, reads]
      refine .kept next nofun ?_ (Session.hears_of_taken taken) ⟨?_, nofun⟩
      · exact books rfl
      · exact iff_of_true ⟨info, List.mem_cons_self⟩ ⟨rfl, by simp [Holder.admits, reads]⟩
    | dropped differ refused mild =>
      have unread : readsAsProcess (args.map Prod.snd) = false :=
        Bool.eq_false_iff.2 (mt readsAsProcess_length differ)
      rw [List.length_map] at differ
      have next : Holder.next .announcements
          ⟨clock, .emit Sender.processIndex name success result args⟩ true = .announcements := by
        simp [Holder.next, differ]
      refine .kept next nofun (books rfl) (.refused (Session.accept_of_refused refused) mild .none)
        (.none (fun _ => List.not_mem_nil) ?_)
      rintro ⟨-, admitted⟩
      simp [Holder.admits, unread] at admitted
    | ended four unread refused fatal =>
      rw [List.length_map] at four
      refine .ended rfl (Session.accept_of_refused refused) fatal
        (by simp [Holder.next, four, unread]) (.none (fun _ => List.not_mem_nil) ?_)
      rintro ⟨-, admitted⟩
      simp [Holder.admits, unread] at admitted

theorem hears_announcement {table : CallTable} {first : SentCall}
    (name : first.name = ProcessInfo.processMarker) (named : first.argNames = announcedNames)
    (known : session.schema.get? (Sender.wireIndex Sender.processIndex)
      = some (first.descriptor table)) (s : Sender) (clock : Clock) (pid ppid : Int64)
    (path : Option String) (other : CallTable) (store : BufferStore σ) :
    session.Hears other store [.data (s.dataOf Sender.processIndex true (.int 0)
        (Sender.processArgs clock pid ppid path))]
      [.process ⟨pid, ppid, clock.epochMillis.moment, ProcessInfo.fileName (path.getD "")⟩]
      { session with pid := some pid } := by
  have data := @acceptData_announcement σ table session s first clock pid ppid path known name named
    true (.int 0)
  exact Session.hears_of_taken data

/-- A description of announcements always has a frame. -/
theorem framed_announcement (s : Sender) (clock : Clock) (pid ppid : Int64)
    (path : Option String) :
    (Message.info (s.infoOf Sender.processIndex ProcessInfo.processMarker
      (Sender.processArgs clock pid ppid path))).body?.isSome = true := by
  unfold Sender.infoOf
  have names : (Sender.processArgs clock pid ppid path).map (·.1) = announcedNames := rfl
  rw [names]
  cases Category.resolve s.table ProcessInfo.processMarker
      (Sender.processArgs clock pid ppid path) <;> decide +kernel

/-- The description of announcements makes them known, and makes no other index theirs. -/
theorem knowsAnnouncement_describe (session : Session σ) (s : Sender) (other : CallTable)
    (clock : Clock) (pid ppid : Int64) (path : Option String) :
    Session.KnowsAnnouncement { session with
      schema := session.schema.describe other (s.infoOf Sender.processIndex
        ProcessInfo.processMarker (Sender.processArgs clock pid ppid path)) } ∧
    ∀ index, index ≠ Sender.processIndex → session.Foreign index →
      Session.Foreign { session with
        schema := session.schema.describe other (s.infoOf Sender.processIndex
          ProcessInfo.processMarker (Sender.processArgs clock pid ppid path)) } index := by
  have told := get?_describe_infoOf session.schema s other (announcement clock pid ppid path)
  constructor
  · exact ⟨s.table, announcement clock pid ppid path, rfl, rfl, (told _).trans (if_pos rfl)⟩
  · intro index apart foreign d known
    exact foreign d (((told index).trans (if_neg (Ne.symm apart))).symm.trans known)

/-- An announcement behind its description is heard, if it is sent. -/
theorem hears_behind_description {mid : Session σ} {t : Sender}
    (others : ∀ index, index ≠ Sender.processIndex → mid.Foreign index)
    (knows : mid.KnowsAnnouncement) (marked : Sender.processIndex ∈ t.described) {clock : Clock}
    {pid ppid : Int64} {path : Option String}
    (admitted : holder.admits ⟨clock, .announce pid ppid path⟩ = true)
    (shape : [.data (s.dataOf Sender.processIndex true (.int 0)
      (Sender.processArgs clock pid ppid path))] = sent ++ unsent)
    (other : CallTable) (store : BufferStore σ) :
    ∃ records last, mid.Hears other store sent records last ∧ Held .announcements t last ∧
      Arrival holder ⟨clock, .announce pid ppid path⟩ unsent.isEmpty records last.pid := by
  have held : Held .announcements t mid :=
    ⟨others, iff_of_true marked nofun, fun nobody => absurd rfl nobody, fun _ => knows⟩
  rcases List.singleton_eq_append_iff.1 shape with ⟨rfl, rfl⟩ | ⟨rfl, rfl⟩
  · exact ⟨[], mid, .none, held, .none (fun _ => List.not_mem_nil) (by rintro ⟨⟨⟩, -⟩)⟩
  · rcases knows with ⟨table, first, named, names, known⟩
    refine ⟨_, _, hears_announcement named names known s clock pid ppid path other store,
      held.congr rfl rfl, ?_, ?_⟩
    · exact iff_of_true ⟨_, List.mem_cons_self⟩ ⟨rfl, admitted⟩
    · rintro _ _ _ ⟨⟩ - -
      exact ⟨rfl, rfl⟩

/-- An announcement takes the index if nobody holds it, is heard if announcements do, and is read as
a call if a call does. -/
theorem Held.announce (held : Held holder s session) (going : holder ≠ .ended) {clock : Clock}
    {pid ppid : Int64} {path : Option String}
    (shape : (s.prepare ⟨clock, .announce pid ppid path⟩).1 = sent ++ unsent)
    (stopped : ∀ message later, unsent = message :: later → message.body? = none)
    (other : CallTable) (store : BufferStore σ) :
    Handled holder ⟨clock, .announce pid ppid path⟩ unsent.isEmpty
      (s.prepare ⟨clock, .announce pid ppid path⟩).2 session other store sent := by
  have prepared : s.prepare ⟨clock, .announce pid ppid path⟩
    = Sender.prepareCall { s with clock, pid } Sender.processIndex ProcessInfo.processMarker true
        (.int 0) (Sender.processArgs clock pid ppid path) := rfl
  have small : Sender.processIndex.toNat < Sender.capacity := by decide
  have described : holder ≠ .free →
      ¬ Sender.Undescribed { s with clock, pid } Sender.processIndex :=
    fun taken fresh => fresh.2 (List.contains_iff_mem.2 (held.marked.2 taken))
  have marked : Sender.processIndex ∈ (s.prepare ⟨clock, .announce pid ppid path⟩).2.described := by
    rw [prepared, mem_described_prepareCall]
    exact .inr ⟨rfl, small⟩
  cases holder with
  | free =>
    have fresh : Sender.Undescribed { s with clock, pid } Sender.processIndex :=
      ⟨small, fun mem => held.marked.1 (List.contains_iff_mem.1 mem) rfl⟩
    rw [prepared, Sender.prepareCall, if_pos fresh] at shape
    -- The description is the first message, and one of announcements always has a frame.
    rcases List.cons_eq_append_iff.1 shape with ⟨rfl, rfl⟩ | ⟨later, rfl, behind⟩
    · have framed := framed_announcement { s with clock, pid } clock pid ppid path
      rw [stopped _ _ rfl] at framed
      cases framed
    · rcases knowsAnnouncement_describe session { s with clock, pid } other clock pid ppid path with
        ⟨knows, others⟩
      rcases @hears_behind_description σ .free _ later unsent _ _
        (fun index apart => others index apart (held.others index apart)) knows marked clock pid
        ppid path rfl behind other store with ⟨records, last, hears, after, arrival⟩
      exact .heard (.taken (accept_infoOf ..) hears) nofun after arrival
  | announcements =>
    rw [prepared, Sender.prepareCall, if_neg (described nofun)] at shape
    rcases @hears_behind_description σ .announcements _ sent unsent _ _ held.others
      (held.known rfl) marked clock pid ppid path rfl shape other store with
      ⟨records, last, hears, after, arrival⟩
    exact .heard hears nofun after arrival
  | call =>
    have books : Held .call { s with clock, pid } session := held.congr rfl rfl
    rw [prepared, Sender.prepareCall, if_neg (described nofun)] at shape ⊢
    rcases List.singleton_eq_append_iff.1 shape with ⟨rfl, rfl⟩ | ⟨rfl, rfl⟩
    · exact .heard .none nofun books (.none (fun _ => List.not_mem_nil) (by rintro ⟨-, ⟨⟩⟩))
    · rcases @hears_data_of_foreign σ session (announcement clock pid ppid path)
        (held.foreign nofun) { s with clock, pid } true (.int 0) other store with
        ⟨records, hears, silent⟩
      exact .heard hears nofun books (.none silent (by rintro ⟨-, ⟨⟩⟩))
  | ended => exact absurd rfl going

/-- A request without a call leaves the index to its holder. -/
theorem Held.silent (held : Held holder s session) (going : holder ≠ .ended)
    (silent : request.call? = none)
    (shape : (s.prepare request).1 = sent ++ unsent) (other : CallTable) (store : BufferStore σ) :
    Handled holder request unsent.isEmpty (s.prepare request).2 session other store sent := by
  have next := Holder.next_of_silent silent holder unsent.isEmpty
  have heard : ∀ {t : Sender} {records : List Record} {last : Session σ},
      holder.admits request = false → t.described = s.described →
      last.schema = session.schema → session.Hears other store sent records last →
      (∀ info, .process info ∉ records) →
      Handled holder request unsent.isEmpty t session other store sent := by
    intro t records last unadmitted marked same hears quiet
    exact .kept next going (held.congr marked same) hears (.none quiet (by simp [unadmitted]))
  rcases request with ⟨clock, operation⟩
  cases operation with
  | emit index name success result args => cases silent
  | announce pid ppid path => cases silent
  | debug text =>
    rcases List.singleton_eq_append_iff.1 shape with ⟨rfl, rfl⟩ | ⟨rfl, rfl⟩
    · exact heard rfl rfl rfl .none fun _ => List.not_mem_nil
    · exact heard rfl rfl rfl (.single rfl) fun _ => by simp
  | buffer payload =>
    rcases List.singleton_eq_append_iff.1 shape with ⟨rfl, rfl⟩ | ⟨rfl, rfl⟩
    · exact heard rfl rfl rfl .none fun _ => List.not_mem_nil
    · have taken : session.accept other store (Message.buffer payload (checksum payload))
          = (.ok none, { session with
              kept := (store.keep session.kept (checksum payload) payload).2 }) := by
        rw [Session.accept, verify, if_pos rfl]
      refine heard rfl rfl ?_ (.single taken) fun _ => List.not_mem_nil
      rfl
  | setPid pid =>
    obtain rfl := (List.append_eq_nil_iff.1 shape.symm).1
    exact heard rfl rfl rfl .none fun _ => List.not_mem_nil

/-- One more request. -/
theorem Held.step (held : Held holder s session) (going : holder ≠ .ended) (own : request.OwnName)
    (shape : (s.prepare request).1 = sent ++ unsent)
    (stopped : ∀ message later, unsent = message :: later → message.body? = none)
    (other : CallTable) (store : BufferStore σ) :
    Handled holder request unsent.isEmpty (s.prepare request).2 session other store sent := by
  rcases request with ⟨clock, operation⟩
  cases operation with
  | emit index name success result args =>
    by_cases read : index = Sender.processIndex ∧ holder = .announcements
    · rcases read with ⟨rfl, rfl⟩
      exact held.emit_announced shape other store
    · have foreign : session.Foreign index := by
        by_cases here : index = Sender.processIndex
        · subst here
          exact held.foreign fun announced => read ⟨rfl, announced⟩
        · exact held.others index here
      exact held.emit_foreign going foreign own.1 read shape other store
  | announce pid ppid path => exact held.announce going shape stopped other store
  | debug text => exact held.silent going rfl shape other store
  | buffer payload => exact held.silent going rfl shape other store
  | setPid pid => exact held.silent going rfl shape other store

end

end CallTrace
