import CallTrace.Proofs.Receiver.Calls
import CallTrace.Proofs.Receiver.Pull

/-!
Records are stamped with the process announced last. `lastProcess?` finds it in the records that a
caller has seen, and `records_are_stamped` says that a receiver has the same one in mind at every
point of its run, that each call carries it, and each thread unless it names a process itself.

`ProcessIn` and `ThreadIn` say which frames announce a process or a thread: that depends on what the
index of the data was last described as, so it can change in the middle of a stream. No frame but
one with `ProcessIn` changes the process that a receiver has in mind.
-/

namespace CallTrace

variable {σ : Type}

/-! ## Announcements among records -/

/-- The process that a record announces. -/
def Record.announced? : Record → Option Int64
  | .process info => some info.pid
  | .debug .. => none
  | .thread _ => none
  | .call _ => none

/-- The process announced last in some records. -/
def lastProcess? (records : List Record) : Option Int64 := lastOf? Record.announced? records

/-- The process of a thread: the integer under the first of its fields with that name, or the
process announced last. -/
def threadProcess (args : NamedValues) (current : Option Int64) : Option Int64 :=
  match args.find? (·.1 == "ProcessIdentifier") with
  | some (_, .int n) => some n
  | some (_, .bool b) => some (if b then 1 else 0)
  | _ => current

theorem threadRecord_eq (session : Session σ) (args : NamedValues) :
    session.threadRecord args = .thread (threadProcess args session.pid) := by
  rw [Session.threadRecord, takeFirst_eq, threadProcess]
  cases args.find? (·.1 == "ProcessIdentifier") with
  | none => rfl
  | some field =>
    rcases field with ⟨name, value⟩
    cases value <;> rfl

namespace Session

variable {session after : Session σ} {table : CallTable} {store : BufferStore σ} {body : Bytes}
  {info : ProcessInfo} {args : NamedValues} {record : Record}

/-! ## Announcements among frames -/

/-- Whether a body holds data whose index is described under a name, with the values of the data
bound to the names of that description. -/
structure DataIn (session : Session σ) (body : Bytes) (data : CallData) (d : CallDescriptor)
    (args : NamedValues) : Prop where
  decoded : Message.decode? body = some (.data data)
  described : session.schema.get? data.index = some d
  bound : d.bind? data.args = some args

/-- Whether a body announces a process. -/
def ProcessIn (session : Session σ) (body : Bytes) (info : ProcessInfo) : Prop :=
  ∃ data d args, session.DataIn body data d args ∧ d.name = ProcessInfo.processMarker ∧
    ProcessInfo.normalize args = .ok info

/-- Whether a body announces a thread with some fields. -/
def ThreadIn (session : Session σ) (body : Bytes) (args : NamedValues) : Prop :=
  ∃ data d, session.DataIn body data d args ∧ d.name = ProcessInfo.threadMarker

/-- Whether a record is what a body says, with the given process announced last. -/
def Stamped (session : Session σ) (body : Bytes) (current : Option Int64) : Record → Prop
  | .debug tid time text => Message.decode? body = some (.debug tid time text)
  | .process info => session.ProcessIn body info
  | .thread pid => ∃ args, session.ThreadIn body args ∧ pid = threadProcess args current
  | .call call => call.pid = current

theorem DataIn.acceptBody {data : CallData} {d : CallDescriptor}
    (here : session.DataIn body data d args) :
    session.acceptBody table store body
      = if d.name = ProcessInfo.processMarker then
          match ProcessInfo.normalize args with
          | .error e => (.error e, session)
          | .ok info => (.ok (some (.process info)), { session with pid := some info.pid })
        else if d.name = ProcessInfo.threadMarker then
          (.ok (some (session.threadRecord args)), session)
        else (.ok (some (session.callRecord d data args)), session) := by
  rw [Session.acceptBody, here.decoded]
  dsimp only
  rw [accept]
  unfold acceptData
  rw [here.described]
  dsimp only
  rw [here.bound]
  dsimp only
  by_cases process : d.name = ProcessInfo.processMarker
  · rw [if_pos process, if_pos process]
    cases ProcessInfo.normalize args with
    | error e => rfl
    | ok info => rfl
  · rw [if_neg process, if_neg process]
    by_cases thread : d.name = ProcessInfo.threadMarker
    · rw [if_pos thread, if_pos thread]
    · rw [if_neg thread, if_neg thread]

theorem acceptBody_of_processIn (here : session.ProcessIn body info) :
    session.acceptBody table store body
      = (.ok (some (.process info)), { session with pid := some info.pid }) := by
  rcases here with ⟨data, d, args, here, marker, normal⟩
  rw [here.acceptBody, if_pos marker, normal]

/-- A body without data of an index that is described announces nothing. -/
theorem acceptBody_of_no_data (none : ∀ data d args, ¬ session.DataIn body data d args) :
    (session.acceptBody table store body).2.pid = session.pid ∧
      ∀ record, (session.acceptBody table store body).1 = .ok (some record) →
        session.Stamped body session.pid record ∧ record.announced? = .none := by
  unfold acceptBody
  cases decoded : Message.decode? body with
  | none => exact ⟨rfl, fun _ => nofun⟩
  | some message =>
    cases message with
    | info info => exact ⟨rfl, fun _ => nofun⟩
    | buffer payload expected =>
      dsimp only
      unfold accept
      dsimp only
      cases verify payload expected with
      | error e => exact ⟨rfl, fun _ => nofun⟩
      | ok digest => exact ⟨rfl, fun _ => nofun⟩
    | debug tid time text =>
      refine ⟨rfl, ?_⟩
      rintro record ⟨⟩
      exact ⟨decoded, rfl⟩
    | data data =>
      dsimp only
      unfold accept acceptData
      dsimp only
      cases described : session.schema.get? data.index with
      | none => exact ⟨rfl, fun _ => nofun⟩
      | some d =>
        dsimp only
        cases bound : d.bind? data.args with
        | none => exact ⟨rfl, fun _ => nofun⟩
        | some args => exact absurd ⟨decoded, described, bound⟩ (none data d args)

/-- A body that announces no process leaves the one announced last. -/
theorem acceptBody_of_no_process (other : ∀ info, ¬ session.ProcessIn body info) :
    (session.acceptBody table store body).2.pid = session.pid ∧
      ∀ record, (session.acceptBody table store body).1 = .ok (some record) →
        session.Stamped body session.pid record ∧ record.announced? = none := by
  by_cases known : ∃ data d args, session.DataIn body data d args
  · rcases known with ⟨data, d, args, here⟩
    rw [here.acceptBody]
    by_cases process : d.name = ProcessInfo.processMarker
    · rw [if_pos process]
      cases normal : ProcessInfo.normalize args with
      | error e => exact ⟨rfl, fun _ => nofun⟩
      | ok info => exact absurd ⟨data, d, args, here, process, normal⟩ (other info)
    · rw [if_neg process]
      by_cases thread : d.name = ProcessInfo.threadMarker
      · rw [if_pos thread, threadRecord_eq]
        refine ⟨rfl, ?_⟩
        rintro record ⟨⟩
        exact ⟨⟨args, ⟨data, d, here, thread⟩, rfl⟩, rfl⟩
      · rw [if_neg thread]
        refine ⟨rfl, ?_⟩
        rintro record ⟨⟩
        exact ⟨rfl, rfl⟩
  · exact acceptBody_of_no_data fun data d args here => known ⟨data, d, args, here⟩

/-- Whatever a body says, its record is stamped, and announces the process that is the last from
then on. -/
theorem stamped_acceptBody (session : Session σ) (table : CallTable) (store : BufferStore σ)
    (body : Bytes) :
    (∀ record, (session.acceptBody table store body).1 = .ok (some record) →
        session.Stamped body session.pid record ∧
          (session.acceptBody table store body).2.pid = record.announced?.or session.pid) ∧
      ((∀ record, (session.acceptBody table store body).1 ≠ .ok (some record)) →
        (session.acceptBody table store body).2.pid = session.pid) := by
  by_cases process : ∃ info, session.ProcessIn body info
  · rcases process with ⟨info, here⟩
    rw [acceptBody_of_processIn here]
    refine ⟨?_, fun none => absurd rfl (none _)⟩
    rintro record ⟨⟩
    exact ⟨here, rfl⟩
  · have none : ∀ info, ¬ session.ProcessIn body info := fun info here => process ⟨info, here⟩
    rcases @acceptBody_of_no_process σ session table store body none with ⟨same, stamped⟩
    refine ⟨fun record yields => ?_, fun _ => same⟩
    rcases stamped record yields with ⟨stamped, silent⟩
    rw [silent]
    exact ⟨stamped, same⟩

end Session

namespace Receiver

variable {r t u : Receiver σ} {body : Bytes} {records front back : List Record} {record : Record}

/-! ## One frame -/

theorem stamped_takeBody (yields : (r.takeBody body).1 = .yielded record) :
    r.session.Stamped body r.session.pid record :=
  (r.session.stamped_acceptBody r.table r.store body).1 record (takeBody_yielded_iff.1 yields) |>.1

/-- A body adds to the records that a caller sees, and with them to the processes announced. -/
theorem pid_takeBody (r : Receiver σ) (body : Bytes) :
    (r.takeBody body).2.session.pid
      = (lastProcess? (r.takeBody body).1.records).or r.session.pid := by
  rcases r.session.stamped_acceptBody r.table r.store body with ⟨yields, silent⟩
  rw [(takeBody_session r body).2]
  cases step : (r.takeBody body).1 with
  | yielded record =>
    rw [Step.records, lastProcess?, lastOf?_singleton]
    exact (yields record (takeBody_yielded_iff.1 step)).2
  | _ =>
    apply silent
    intro record accepted
    rw [takeBody_yielded_iff.2 accepted] at step
    cases step

theorem pid_step (r : Receiver σ) :
    r.step.2.session.pid = (lastProcess? r.step.1.records).or r.session.pid := by
  unfold step
  split
  · rfl
  · rfl
  · next body source _ => exact pid_takeBody (r.withSource source) body

/-! ## Whole runs -/

/-- A receiver has in mind the process that was announced last. -/
theorem Reaches.pid (reached : r.Reaches records t) (fresh : r.session.pid = none) :
    t.session.pid = lastProcess? records := by
  induction reached with
  | start => exact fresh
  | @step records t u step reached running stepped ih =>
    have after := t.pid_step
    rwa [stepped, ih, lastProcess?, lastProcess?, ← lastOf?_append] at after

theorem exists_read_of_yielded (yields : r.step.1 = .yielded record) :
    ∃ body rest, Frame.read r.source = (.ok (some body), rest) ∧
      ((r.withSource rest).takeBody body).1 = .yielded record := by
  cases read : Frame.read r.source with
  | mk answer rest =>
    unfold step at yields
    rw [read] at yields
    rcases answer with e | body?
    · cases yields
    · rcases body? with - | body
      · cases yields
      · exact ⟨body, rest, rfl, yields⟩

/-- Every record of a run was yielded at the point with the records before it. -/
theorem Reaches.split (reached : r.Reaches records u) (eq : records = front ++ record :: back) :
    ∃ t, r.Reaches front t ∧ t.done = false ∧ t.step.1 = .yielded record := by
  induction reached generalizing back with
  | start => cases front <;> cases eq
  | @step records t u step reached running stepped ih =>
    -- The record is the last one, which this step has yielded, or it was there before the step.
    rcases List.eq_nil_or_concat back with rfl | ⟨earlier, last, rfl⟩
    · cases step with
      | yielded other =>
        rcases List.append_inj' eq rfl with ⟨rfl, same⟩
        cases same
        exact ⟨t, reached, running, congrArg Prod.fst stepped⟩
      | _ => exact ih ((List.append_nil _).symm.trans eq)
    · cases step with
      | yielded other =>
        rw [List.concat_eq_append, ← List.cons_append, ← List.append_assoc] at eq
        exact ih (List.append_inj' eq rfl).1
      | _ => exact ih ((List.append_nil _).symm.trans eq)

/-- A receiver has in mind the process announced last at every point of its run, and stamps its
records with it. Only a frame that announces a process, and is not refused, changes it. -/
theorem records_are_stamped (source : Source) (table : CallTable) (store : BufferStore σ)
    (kept : σ) :
    let r := start source table store kept
    (∀ n, r.Reaches (r.pull n).1 (r.pull n).2) ∧
      r.Reaches r.records.1 r.records.2 ∧
      (∀ records t, r.Reaches records t → t.session.pid = lastProcess? records) ∧
      (∀ front record back u, r.Reaches (front ++ record :: back) u →
        ∃ t body rest, r.Reaches front t ∧ Frame.read t.source = (.ok (some body), rest) ∧
          t.session.Stamped body (lastProcess? front) record) ∧
      ∀ records t body rest, r.Reaches records t →
        Frame.read t.source = (.ok (some body), rest) →
        (∀ info, t.session.ProcessIn body info →
          t.step.1 = .yielded (.process info) ∧ t.step.2.session.pid = some info.pid) ∧
        ((∀ info, ¬ t.session.ProcessIn body info) →
          (∀ info, t.step.1 ≠ .yielded (.process info)) ∧
            t.step.2.session.pid = t.session.pid) := by
  intro r
  refine ⟨.pull r, reaches_records r, fun records t reached => reached.pid rfl, ?_, ?_⟩
  · intro front record back u reached
    rcases reached.split rfl with ⟨t, before, running, yields⟩
    rcases exists_read_of_yielded yields with ⟨body, rest, read, yields⟩
    have stamped := stamped_takeBody yields
    rw [withSource, before.pid rfl] at stamped
    exact ⟨t, body, rest, before, read, stamped⟩
  · intro records t body rest reached read
    rw [step_of_read read, (takeBody_session _ body).2]
    refine ⟨fun info here => ?_, fun other => ?_⟩
    · rw [takeBody_yielded_iff, withSource, Session.acceptBody_of_processIn here]
      exact ⟨rfl, rfl⟩
    · rcases t.session.acceptBody_of_no_process other with ⟨same, silent⟩
      refine ⟨fun info yields => ?_, same⟩
      have announced := (silent _ (takeBody_yielded_iff.1 yields)).2
      cases announced

/-- A process, a thread that names another one by a truth value, and a call under the index that the
process had. -/
def announcing : List Message :=
  [.info ⟨1, "__process__", none, [.bare "TimeStamp", .bare "ProcessIdentifier",
      .bare "ParentProcessIdentifier", .bare "ModulePath"], .empty, .empty⟩,
    .data ⟨1, 0, .zero, [.int64 0, .int32 7, .int32 4, .null], [], .int 0, none, none⟩,
    .info ⟨2, "__thread__", none, [.bare "ProcessIdentifier"], .empty, .empty⟩,
    .data ⟨2, 0, .zero, [.boolean true], [], .int 0, none, none⟩,
    .info ⟨1, "NtClose", none, [.bare "handle"], .empty, .empty⟩,
    .data ⟨1, 3, .zero, [.int32 12], [], .int 0, none, none⟩]

/-- The frames of these. -/
def announcingBytes : Bytes := (announcing.filterMap Message.encode?).flatMap Frame.encode

set_option maxRecDepth 4000 in
theorem records_are_stamped_announcing :
    ∃ info other call,
      (start (.ofBytes announcingBytes (some 100) [(5, .interrupted)]) (.ofLists [] [] [] [])
          .discard ()).records.1 = [.process info, other, .call call] ∧
        info.pid = 7 ∧ call.pid = some 7 := by
  let r := start (.ofBytes announcingBytes (some 100) [(5, .interrupted)]) (.ofLists [] [] [] [])
    .discard ()
  have announced : r.records.1.map Record.announced? = [some 7, none, none] := by decide +kernel
  have called : (r.records.1.getLast?.bind Record.call?).isSome = true := by decide +kernel
  rcases List.map_eq_cons_iff.1 announced with ⟨first, _, eq, process, rest⟩
  rcases List.map_eq_cons_iff.1 rest with ⟨other, _, rfl, silent, rest⟩
  rcases List.map_eq_singleton_iff.1 rest with ⟨last, rfl, -⟩
  rw [eq] at called
  cases first with
  | process info =>
    cases last with
    | call call =>
      rcases records_are_stamped (.ofBytes announcingBytes (some 100) [(5, .interrupted)])
        (.ofLists [] [] [] []) .discard () with ⟨-, reached, -, stamped, -⟩
      have here : r.Reaches ([.process info, other] ++ .call call :: []) r.records.2 := by
        rw [List.cons_append, List.cons_append, List.nil_append, ← eq]
        exact reached
      rcases stamped _ _ _ _ here with ⟨_, _, _, -, -, carries⟩
      have last : lastProcess? [.process info, other] = some 7 := by
        rw [lastProcess?, ← List.singleton_append, lastOf?_append, lastOf?_singleton,
          lastOf?_singleton, silent]
        exact process
      exact ⟨info, other, call, eq, Option.some.inj process, carries.trans last⟩
    | _ => cases called
  | _ => cases process

end Receiver

end CallTrace
