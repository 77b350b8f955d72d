import CallTrace.Proofs.Delivery.Reserved

/-!
Announcements among calls that may use their index. `InStep` keeps sender and receiver together
through a run, up to a call that is read as an announcement and ends the stream, and
`InStep.arrival` says what any request of a run comes to.

`announcements_arrive_iff` says exactly when every announcement that succeeds arrives and no call
arrives as one. An announcement is lost behind a call that is the first to use the index
(`not_arrive_behind_call`).
-/

namespace CallTrace

variable {σ : Type}

/-! ## Holders of a run -/

namespace Sender

/-- The holder of the index of announcements behind some requests. -/
def holderFrom (s : Sender) (holder : Holder) : List Request → Holder
  | [] => holder
  | request :: later =>
    (s.perform request).2.holderFrom (holder.next request (s.perform request).1.toBool) later

/-- The holder of the index behind the requests of a new sender. -/
def holder (s : Sender) (requests : List Request) : Holder := s.holderFrom .free requests

end Sender

/-! ## Receivers -/

section

variable {r : Receiver σ} {s : Sender} {holder : Holder} {request : Request}

/-- Whether a receiver runs with the books to which the holder leads, or has ended with it. -/
inductive InStep (holder : Holder) (s : Sender) (r : Receiver σ) : Prop
  | runs : holder ≠ .ended → r.done = false → Held holder s r.session → InStep holder s r
  | ended : holder = .ended → r.done = true → InStep holder s r

theorem InStep.congr {t : Sender} (inStep : InStep holder s r)
    (marked : t.described = s.described) : InStep holder t r := by
  cases inStep with
  | runs going running held => exact .runs going running (held.congr marked rfl)
  | ended here done => exact .ended here done

/-- A receiver that is fed the frames of messages that are heard, or of one that ends its stream. -/
theorem inStep_of_handled {ok : Bool} {t : Sender} {sent : List Message} {bodies : List Bytes}
    (running : r.done = false)
    (handled : Handled holder request ok t r.session r.table r.store sent)
    (read : bodies.map Message.decode? = sent.map fun message => some message.received) :
    InStep (holder.next request ok) t (r.feed bodies).2 ∧
      Arrival holder request ok (r.feed bodies).1 (r.feed bodies).2.session.pid := by
  cases handled with
  | heard hears going held arrival =>
    rcases Receiver.feed_of_hears running hears read with ⟨consumed, dropped, fed⟩
    rw [fed]
    exact ⟨.runs going running held, arrival⟩
  | ended only refused fatal next arrival =>
    subst only
    rcases List.map_eq_cons_iff.1 read with ⟨body, none, rfl, decoded, rest⟩
    obtain rfl := List.map_eq_nil_iff.1 rest
    rcases Receiver.takeBody_of_fatal decoded refused fatal with ⟨silent, done, same⟩
    rw [Receiver.feed_cons running, silent, Receiver.feed_of_done done, same]
    exact ⟨.ended next done, arrival⟩

/-- One more request, with frames that are short enough for the receiver. -/
theorem InStep.step (inStep : InStep holder s r) (reliable : s.sink.TakesAll)
    (own : request.OwnName)
    (short : ∀ body ∈ s.sentBodies [request], Frame.readable body = true) :
    InStep (holder.next request (s.perform request).1.toBool) (s.perform request).2
        (r.feed (s.sentBodies [request])).2 ∧
      Arrival holder request (s.perform request).1.toBool (r.feed (s.sentBodies [request])).1
        (r.feed (s.sentBodies [request])).2.session.pid := by
  cases inStep with
  | runs going running held =>
    rcases Sender.sentBodies_of_takesAll reliable request with
      ⟨sent, unsent, split, bodies, succeeds, stopped⟩
    -- On such a transport, a request fails exactly if something of it is left unsent.
    have ok : (s.perform request).1.toBool = unsent.isEmpty := by
      rw [Bool.eq_iff_iff, List.isEmpty_iff, ← succeeds]
      cases (s.perform request).1 <;> simp [Except.toBool]
    have plain : ∀ message ∈ sent, message.Plain := by
      intro message mem
      apply Sender.plain_of_mem_prepare
      rw [split]
      exact List.mem_append_left unsent mem
    have handled := held.step going own split stopped r.table r.store
    rw [ok]
    rcases inStep_of_handled running handled (decode?_of_bodies plain bodies short) with
      ⟨inStep, arrival⟩
    refine ⟨inStep.congr ?_, arrival⟩
    rw [Sender.perform_eq]
  | ended here done =>
    subst here
    rw [Receiver.feed_of_done done]
    have unadmitted : Holder.admits .ended request = false := by
      rcases request with ⟨clock, operation⟩
      cases operation <;> simp [Holder.admits]
    refine ⟨.ended (Holder.next_ended ..) done, .none (fun _ => List.not_mem_nil) ?_⟩
    simp [unadmitted]

theorem InStep.run (inStep : InStep holder s r) (reliable : s.sink.TakesAll)
    {requests : List Request} (own : ∀ request ∈ requests, request.OwnName)
    (short : ∀ body ∈ s.sentBodies requests, Frame.readable body = true) :
    InStep (s.holderFrom holder requests) (s.run requests).2
      (r.feed (s.sentBodies requests)).2 := by
  induction requests generalizing s r holder with
  | nil => exact inStep
  | cons request later ih =>
    rw [Sender.sentBodies_cons, List.forall_mem_append] at short
    rcases List.forall_mem_cons.1 own with ⟨here, others⟩
    have stays : (s.perform request).2.sink.TakesAll :=
      ((s.attempts_log [request]).of_takesAll reliable).2
    rw [Sender.sentBodies_cons, Receiver.feed_append]
    exact ih (inStep.step reliable here short.1).1 stays others short.2

theorem inStep_start (sink : Sink) (table : CallTable) (clock : Clock) (source : Source)
    (other : CallTable) (store : BufferStore σ) (kept : σ) :
    InStep .free (Sender.start sink table clock) (Receiver.start source other store kept) := by
  refine .runs nofun rfl ⟨fun _ _ _ => nofun, ?_, fun _ _ => nofun, nofun⟩
  exact iff_of_false List.not_mem_nil fun free => free rfl

/-- What a receiver makes of one request of a sender behind others. -/
def Sender.heardBy (s : Sender) (r : Receiver σ) (before : List Request) (request : Request) :
    List Record × Receiver σ :=
  (r.feed (s.sentBodies before)).2.feed ((s.run before).2.sentBodies [request])

/-- Any request of a run comes to what the holder of the index behind those before it admits. -/
theorem InStep.arrival (inStep : InStep .free s r) (reliable : s.sink.TakesAll)
    {before later : List Request}
    (own : ∀ other ∈ before ++ request :: later, other.OwnName)
    (short : ∀ body ∈ s.sentBodies (before ++ request :: later), Frame.readable body = true) :
    Arrival (s.holder before) request ((s.run before).2.perform request).1.toBool
      (s.heardBy r before request).1 (s.heardBy r before request).2.session.pid := by
  rw [Sender.sentBodies_append, Sender.sentBodies_cons, List.forall_mem_append,
    List.forall_mem_append] at short
  rw [List.forall_mem_append, List.forall_mem_cons] at own
  have stays := ((s.attempts_log before).of_takesAll reliable).2
  exact ((inStep.run reliable own.1 short.1).step stays own.2.1 short.2.1).2

end

/-! ## Announcements and calls of a run -/

/-- Whether every announcement that succeeds arrives as its own record, and makes its process the
last one announced, and no call arrives as an announcement. -/
structure AnnouncementsArrive (s : Sender) (r : Receiver σ) (requests : List Request) : Prop where
  announced : ∀ before clock pid ppid path later,
    requests = before ++ ⟨clock, .announce pid ppid path⟩ :: later →
    ((s.run before).2.perform ⟨clock, .announce pid ppid path⟩).1 = .ok () →
    (s.heardBy r before ⟨clock, .announce pid ppid path⟩).1
        = [.process ⟨pid, ppid, clock.epochMillis.moment, ProcessInfo.fileName (path.getD "")⟩] ∧
      (s.heardBy r before ⟨clock, .announce pid ppid path⟩).2.session.pid = some pid
  alone : ∀ before clock index name success result args later,
    requests = before ++ ⟨clock, .emit index name success result args⟩ :: later →
    ∀ info, .process info ∉ (s.heardBy r before ⟨clock, .emit index name success result args⟩).1

/-- Whether no call is in the way of announcements: of the requests that succeed, the holder of the
index admits the announcements and nothing else. -/
def Undisplaced (s : Sender) (requests : List Request) : Prop :=
  ∀ before request later, requests = before ++ request :: later →
    ((s.run before).2.perform request).1 = .ok () →
    ((s.holder before).admits request = true ↔ request.announced?.isSome = true)

theorem eq_ok_of_toBool {result : Except SendError Unit} (ok : result.toBool = true) :
    result = .ok () := by
  cases result with
  | ok done => rfl
  | error e => cases ok

theorem arrive_iff_undisplaced {s : Sender} {r : Receiver σ} (inStep : InStep .free s r)
    (reliable : s.sink.TakesAll) {requests : List Request}
    (own : ∀ request ∈ requests, request.OwnName)
    (short : ∀ body ∈ s.sentBodies requests, Frame.readable body = true) :
    AnnouncementsArrive s r requests ↔ Undisplaced s requests := by
  constructor
  · rintro arrive before request later rfl succeeds
    have arrival := inStep.arrival reliable own short
    rw [succeeds] at arrival
    rcases request with ⟨clock, operation⟩
    cases operation with
    | emit index name success result args =>
      refine iff_of_false (fun admitted => ?_) Bool.false_ne_true
      rcases arrival.process_iff.2 ⟨rfl, admitted⟩ with ⟨info, mem⟩
      exact arrive.alone before clock index name success result args later rfl info mem
    | announce pid ppid path =>
      have only := (arrive.announced before clock pid ppid path later rfl succeeds).1
      exact iff_of_true (arrival.process_iff.1 ⟨_, only ▸ List.mem_cons_self⟩).2 rfl
    | debug text => exact iff_of_false Bool.false_ne_true Bool.false_ne_true
    | buffer payload => exact iff_of_false Bool.false_ne_true Bool.false_ne_true
    | setPid pid => exact iff_of_false Bool.false_ne_true Bool.false_ne_true
  · intro undisplaced
    constructor
    · rintro before clock pid ppid path later rfl succeeds
      have arrival := inStep.arrival reliable own short
      rw [succeeds] at arrival
      exact arrival.announced pid ppid path rfl rfl ((undisplaced _ _ _ rfl succeeds).2 rfl)
    · rintro before clock index name success result args later rfl info mem
      have arrival := inStep.arrival reliable own short
      rcases arrival.process_iff.1 ⟨info, mem⟩ with ⟨ok, admitted⟩
      cases (undisplaced _ _ _ rfl (eq_ok_of_toBool ok)).1 admitted

/-- Whether a request leaves the index of announcements to them. -/
def Request.Apart (request : Request) : Prop :=
  ∀ index name success result args, request.operation = .emit index name success result args →
    index ≠ Sender.processIndex

theorem Sender.holderFrom_apart {s : Sender} {holder : Holder} {requests : List Request}
    (kept : holder = .free ∨ holder = .announcements)
    (apart : ∀ request ∈ requests, request.Apart) :
    s.holderFrom holder requests = .free ∨ s.holderFrom holder requests = .announcements := by
  induction requests generalizing s holder with
  | nil => exact kept
  | cons request later ih =>
    rcases List.forall_mem_cons.1 apart with ⟨here, others⟩
    refine ih ?_ others
    rcases request with ⟨clock, operation⟩
    cases operation with
    | emit index name success result args =>
      rwa [Holder.next_emit_of_ne (here index name success result args rfl)]
    | announce pid ppid path =>
      right
      rcases kept with rfl | rfl <;> rfl
    | debug text => rwa [Holder.next_of_silent rfl]
    | buffer payload => rwa [Holder.next_of_silent rfl]
    | setPid pid => rwa [Holder.next_of_silent rfl]

/-- No call is in the way if all leave the index to announcements. -/
theorem undisplaced_of_apart (s : Sender) {requests : List Request}
    (apart : ∀ request ∈ requests, request.Apart) : Undisplaced s requests := by
  rintro before request later rfl -
  rw [List.forall_mem_append, List.forall_mem_cons] at apart
  have kept : s.holder before = .free ∨ s.holder before = .announcements :=
    s.holderFrom_apart (.inl rfl) apart.1
  rcases request with ⟨clock, operation⟩
  cases operation with
  | emit index name success result args =>
    have here := apart.2.1 index name success result args rfl
    exact iff_of_false (by simp [Holder.admits, here]) Bool.false_ne_true
  | announce pid ppid path => exact iff_of_true (by simpa [Holder.admits] using kept) rfl
  | debug text => exact iff_of_false Bool.false_ne_true Bool.false_ne_true
  | buffer payload => exact iff_of_false Bool.false_ne_true Bool.false_ne_true
  | setPid pid => exact iff_of_false Bool.false_ne_true Bool.false_ne_true

/-- Every announcement that succeeds arrives, and no call arrives as one, exactly if no call is in
the way of announcements. -/
theorem announcements_arrive_iff {sink : Sink} (reliable : sink.TakesAll) (table : CallTable)
    (clock : Clock) {requests : List Request} (own : ∀ request ∈ requests, request.OwnName)
    (short : ∀ body ∈ (Sender.start sink table clock).sentBodies requests,
      Frame.readable body = true) :
    let s := Sender.start sink table clock
    (s.run requests).2.sink.accepted.toList
        = sink.accepted.toList ++ (s.sentBodies requests).flatMap Frame.encode ∧
      ∀ {σ : Type} (source : Source) (other : CallTable) (store : BufferStore σ) (kept : σ),
        source.ServesAll ((s.sentBodies requests).flatMap Frame.encode) →
        let r := Receiver.start source other store kept
        r.records.1 = (r.feed (s.sentBodies requests)).1 ∧
          (AnnouncementsArrive s r requests ↔ Undisplaced s requests) := by
  intro s
  refine ⟨Sender.accepted_of_takesAll reliable requests, ?_⟩
  intro σ source other store kept serves r
  constructor
  · have bare : Frame.Unframed [] := by
      intro body rest here
      cases here
    rcases Frame.split_frames_append (fun body mem => of_decide_eq_true (short body mem)) [] with
      ⟨found, -⟩
    rw [List.append_nil, bare.split.1, List.append_nil] at found
    rcases Receiver.records_of_supplies (r := r) (.ending serves) rfl with ⟨rest, records⟩
    rw [records, found]
  · exact arrive_iff_undisplaced (inStep_start ..) reliable own short

/-- A call of the index of announcements between two of them, with arguments that are none of an
announcement by their number. -/
def betweenAnnouncements : List Request :=
  [⟨⟨.zero, 0⟩, .announce 42 1 (some "a")⟩,
    ⟨⟨.zero, 0⟩, .emit Sender.processIndex "NtClose" true (.int 0) []⟩,
    ⟨⟨.zero, 0⟩, .announce 43 42 none⟩]

theorem announcements_arrive_between :
    let s := Sender.start chopped noCalls ⟨.zero, 0⟩
    let bytes := (s.sentBodies betweenAnnouncements).flatMap Frame.encode
    AnnouncementsArrive s (Receiver.start (.ofBytes bytes (some 7) []) noCalls .discard ())
      betweenAnnouncements := by
  intro s bytes
  have own : ∀ request ∈ betweenAnnouncements, request.OwnName := by decide
  have short : ∀ body ∈ s.sentBodies betweenAnnouncements, Frame.readable body = true := by
    decide +kernel
  have serves : (Source.ofBytes bytes (some 7) []).ServesAll bytes :=
    Source.servesAll_ofBytes bytes (by decide) nofun
  rcases announcements_arrive_iff takesAll_chopped noCalls ⟨.zero, 0⟩ own short with ⟨-, receiver⟩
  refine (receiver _ noCalls .discard () serves).2.2 ?_
  rintro before request later split -
  rcases before with _ | ⟨_, _ | ⟨_, _ | ⟨_, before⟩⟩⟩
  all_goals
    simp only [betweenAnnouncements, List.nil_append, List.cons_append, List.cons.injEq] at split
  · obtain ⟨rfl, -⟩ := split
    exact iff_of_true rfl rfl
  · obtain ⟨rfl, rfl, -⟩ := split
    exact iff_of_false (by decide) Bool.false_ne_true
  · obtain ⟨rfl, rfl, rfl, -⟩ := split
    exact iff_of_true (by decide +kernel) rfl
  · simp at split

/-- A call under the index of announcements. -/
def misplacedCall : Request :=
  ⟨⟨.zero, 0⟩, .emit Sender.processIndex "NtClose" true (.int 0) []⟩

/-- An announcement. -/
def laterAnnouncement : Request := ⟨⟨.zero, 0⟩, .announce 42 1 (some "a")⟩

theorem not_arrive_behind_call :
    let s := Sender.start .unlimited noCalls ⟨.zero, 0⟩
    let requests := [misplacedCall, laterAnnouncement]
    let bytes := (s.run requests).2.sink.accepted.toList
    (∀ request ∈ requests, request.OwnName) ∧
      ((s.run [misplacedCall]).2.perform laterAnnouncement).1 = .ok () ∧
      (∀ body ∈ s.sentBodies requests, Frame.readable body = true) ∧
      ¬ AnnouncementsArrive s (Receiver.start (.ofBytes bytes none []) noCalls .discard ())
        requests := by
  intro s requests bytes
  have own : ∀ request ∈ requests, request.OwnName := by decide
  have short : ∀ body ∈ s.sentBodies requests, Frame.readable body = true := by decide +kernel
  have announce : ((s.run [misplacedCall]).2.perform laterAnnouncement).1 = .ok () :=
    eq_ok_of_toBool (by decide +kernel)
  refine ⟨own, announce, short, fun arrive => ?_⟩
  have reliable : s.sink.TakesAll := Sink.takesAll_unlimited
  have undisplaced :=
    (arrive_iff_undisplaced (inStep_start ..) reliable own short).1 arrive
  -- The call holds the index behind its own request.
  have holder : s.holder [misplacedCall] = .call := rfl
  have admitted := (undisplaced [misplacedCall] laterAnnouncement [] rfl announce).2 rfl
  rw [holder] at admitted
  cases admitted

end CallTrace
