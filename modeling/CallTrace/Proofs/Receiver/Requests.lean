import CallTrace.Proofs.Receiver.Pull

/-!
Two ways to take records from one receiver. A caller asks for the next record, or forwards records
to a sink until the sink refuses one or the stream ends; `serve` answers such requests one after
another, and `handedTo` has what a sink is handed.

`drains_drain` says what a single drain comes to, in terms of pulls. As a request comes to some
number of pulls, so do many, and `requests_share_one_stream` follows: no mixture of requests loses a
record, repeats one or changes their order, and nothing happens behind the end.
-/

namespace CallTrace

/-! ## What a sink is handed -/

namespace RecordSink

variable {τ : Type}

/-- A sink that also writes down what it is handed, whether it takes it or not. -/
def logged (sink : RecordSink τ) : RecordSink (List Record × τ) :=
  ⟨fun (log, state) record =>
    ((sink.accept state record).1, log ++ [record], (sink.accept state record).2)⟩

theorem accept_logged {sink : RecordSink τ} {state after : τ} {record : Record} {took : Bool}
    (accepts : sink.accept state record = (took, after)) (log : List Record) :
    sink.logged.accept (log, state) record = (took, log ++ [record], after) := by
  change ((sink.accept state record).1, log ++ [record], (sink.accept state record).2) = _
  rw [accepts]

/-- A sink takes some records, one after another. -/
inductive Takes (sink : RecordSink τ) : τ → List Record → τ → Prop
  | nil {state : τ} : Takes sink state [] state
  | cons {state next last : τ} {record : Record} {later : List Record} :
    sink.accept state record = (true, next) → Takes sink next later last →
    Takes sink state (record :: later) last

end RecordSink

namespace Receiver

variable {σ τ : Type} {r t u : Receiver σ} {sink : RecordSink τ} {state next last : τ}
  {record : Record} {given : List Record} {count : Nat}

/-! ## One drain -/

theorem drainFrom_of_none (pulled : r.next = (none, t)) :
    drainFrom sink r state count = (.all count, state, t) := by
  rw [drainFrom]
  split
  · next h =>
    rw [pulled] at h
    cases h
    rfl
  · next h =>
    rw [pulled] at h
    cases h

theorem drainFrom_of_some (pulled : r.next = (some record, t)) :
    drainFrom sink r state count = (match sink.accept state record with
      | (false, state) => (.refused, state, t)
      | (true, state) => drainFrom sink t state (count + 1)) := by
  rw [drainFrom]
  split
  · next h =>
    rw [pulled] at h
    cases h
  · next h =>
    rw [pulled] at h
    cases h
    rfl

theorem drainFrom_of_refused (pulled : r.next = (some record, t))
    (refuses : sink.accept state record = (false, next)) :
    drainFrom sink r state count = (.refused, next, t) := by
  rw [drainFrom_of_some pulled, refuses]

theorem drainFrom_of_taken (pulled : r.next = (some record, t))
    (takes : sink.accept state record = (true, next)) :
    drainFrom sink r state count = drainFrom sink t next (count + 1) := by
  rw [drainFrom_of_some pulled, takes]

/-- What a drain comes to if the sink has taken `count` records already, with those that the sink is
handed. Either it takes all that there are, or it refuses the last one that was pulled. -/
inductive Drains (sink : RecordSink τ) (r : Receiver σ) (state : τ) (count : Nat) :
    List Record → Drained × τ × Receiver σ → Prop
  | all {taken : List Record} {last : τ} {t : Receiver σ} :
    sink.Takes state taken last → r.pull (taken.length + 1) = (taken, t) → t.done = true →
    Drains sink r state count taken (.all (count + taken.length), last, t)
  | refused {taken : List Record} {record : Record} {before after : τ} {t : Receiver σ} :
    sink.Takes state taken before → sink.accept before record = (false, after) →
    r.pull (taken.length + 1) = (taken ++ [record], t) →
    Drains sink r state count (taken ++ [record]) (.refused, after, t)

theorem Drains.cons {outcome : Drained × τ × Receiver σ} (pulled : r.next = (some record, t))
    (takes : sink.accept state record = (true, next))
    (drains : Drains sink t next (count + 1) given outcome) :
    Drains sink r state count (record :: given) outcome := by
  cases drains with
  | @all _ last u later rest done =>
    rw [show count + 1 + given.length = count + (record :: given).length by
      rw [List.length_cons]
      omega]
    refine .all (.cons takes later) ?_ done
    rw [List.length_cons, pull_succ, pulled, rest]
    rfl
  | @refused taken last before after u later refuses rest =>
    rw [← List.cons_append]
    refine .refused (.cons takes later) refuses ?_
    rw [List.length_cons, pull_succ, pulled, rest]
    rfl

/-- A drain is some pulls: as many as records, unless it finds the end. -/
theorem Drains.exists_pull {outcome : Drained × τ × Receiver σ}
    (drains : Drains sink r state count given outcome) :
    ∃ n, r.pull n = (given, outcome.2.2) ∧ (outcome.1 = .refused → n = given.length) ∧
      ∀ taken, outcome.1 = .all taken → outcome.2.2.done = true := by
  cases drains with
  | all takes pulled done => exact ⟨_, pulled, nofun, fun _ _ => done⟩
  | refused takes refuses pulled =>
    refine ⟨_, pulled, fun _ => ?_, nofun⟩
    rw [List.length_append, List.length_singleton]

/-- A drain comes to some pulls, and does not depend on whether the sink writes down what it is
handed. -/
theorem drains_drainFrom (sink : RecordSink τ) (r : Receiver σ) (state : τ) (count : Nat)
    (log : List Record) :
    ∃ given, Drains sink r state count given (drainFrom sink r state count) ∧
      drainFrom sink.logged r (log, state) count
        = ((drainFrom sink r state count).1,
            (log ++ given, (drainFrom sink r state count).2.1),
            (drainFrom sink r state count).2.2) := by
  fun_induction drainFrom sink r state count generalizing log with
  | case1 r state count t pulled =>
    refine ⟨[], .all .nil ?_ (done_of_next pulled), ?_⟩
    · rw [List.length_nil, pull_succ, pulled]
      rfl
    · rw [drainFrom_of_none pulled, List.append_nil]
  | case2 r state count record t pulled after refuses =>
    refine ⟨[record], .refused .nil refuses ?_, ?_⟩
    · rw [List.length_nil, pull_succ, pulled]
      rfl
    · rw [drainFrom_of_refused pulled (RecordSink.accept_logged refuses log)]
  | case3 r state count record t pulled next takes ih =>
    rcases ih (log ++ [record]) with ⟨given, drains, logged⟩
    refine ⟨record :: given, drains.cons pulled takes, ?_⟩
    rw [drainFrom_of_taken pulled (RecordSink.accept_logged takes log), logged, List.append_assoc]
    rfl

/-- The records that a sink is handed by a drain, the one that it refuses included. -/
def handedTo (sink : RecordSink τ) (r : Receiver σ) (state : τ) : List Record :=
  (r.drain sink.logged ([], state)).2.1.1

theorem drains_drain (sink : RecordSink τ) (r : Receiver σ) (state : τ) :
    Drains sink r state 0 (handedTo sink r state) (r.drain sink state) := by
  rcases drains_drainFrom sink r state 0 [] with ⟨given, drains, logged⟩
  have same : handedTo sink r state = given := by
    rw [handedTo, drain, logged]
    rfl
  rwa [same]

/-! ## Many requests -/

/-- What a caller may ask of a receiver. -/
inductive Request : Type 1
  /-- The next record. -/
  | next
  /-- To forward records to a sink. -/
  | drain {τ : Type} (sink : RecordSink τ) (state : τ)

/-- The records that a request hands out. -/
def Request.handed (r : Receiver σ) : Request → List Record
  | .next => r.next.1.toList
  | .drain sink state => handedTo sink r state

/-- The receiver behind a request. -/
def Request.after (r : Receiver σ) : Request → Receiver σ
  | .next => r.next.2
  | .drain sink state => (r.drain sink state).2.2

/-- The records that some requests hand out, in the order of the requests, and the receiver behind
them. -/
def serve (r : Receiver σ) : List Request → List Record × Receiver σ
  | [] => ([], r)
  | request :: later =>
    (request.handed r ++ ((request.after r).serve later).1, ((request.after r).serve later).2)

/-- A request is some pulls. -/
theorem Request.exists_pull (request : Request) (r : Receiver σ) :
    ∃ n, (request.handed r, request.after r) = r.pull n := by
  cases request with
  | next =>
    refine ⟨1, ?_⟩
    rw [pull_succ, pull, List.append_nil]
    rfl
  | drain sink state =>
    rcases (drains_drain sink r state).exists_pull with ⟨n, pulled, -⟩
    exact ⟨n, pulled.symm⟩

/-- Only a receiver that runs has a record. -/
theorem running_of_next (pulled : r.next = (some record, t)) : r.done = false := by
  cases finished : r.done with
  | false => rfl
  | true =>
    rw [next_of_done finished] at pulled
    cases pulled

theorem pull_add (r : Receiver σ) (m n : Nat) :
    r.pull (m + n) = ((r.pull m).1 ++ ((r.pull m).2.pull n).1, ((r.pull m).2.pull n).2) := by
  induction n with
  | zero => rw [Nat.add_zero, pull, List.append_nil]
  | succ n ih => rw [← Nat.add_assoc, pull, ih, pull, List.append_assoc]

/-- Many requests are some pulls. -/
theorem exists_pull_serve (r : Receiver σ) (requests : List Request) :
    ∃ n, r.serve requests = r.pull n := by
  induction requests generalizing r with
  | nil => exact ⟨0, rfl⟩
  | cons request later ih =>
    rcases request.exists_pull r with ⟨m, first⟩
    rcases ih (request.after r) with ⟨n, rest⟩
    refine ⟨m + n, ?_⟩
    rw [serve, rest, pull_add, ← first]

/-- Each pull yields a record while the stream lasts. -/
theorem length_of_pull {n : Nat} (pulled : r.pull n = (given, t)) (lasts : t.done = false) :
    given.length = n := by
  induction n generalizing given t with
  | zero =>
    cases pulled
    rfl
  | succ n ih =>
    cases before : r.pull n with
    | mk records u =>
      rw [pull, before] at pulled
      cases last : u.next with
      | mk record v =>
        rw [last] at pulled
        cases pulled
        cases record with
        | none =>
          rw [done_of_next last] at lasts
          cases lasts
        | some record =>
          rw [List.length_append, ih before (running_of_next last)]
          rfl

/-- The records of some pulls are the first of all. -/
theorem pull_isPrefix_records (r : Receiver σ) (n : Nat) : (r.pull n).1 <+: r.records.1 := by
  rcases r.exists_pull_done with ⟨m, done⟩
  have finished : (r.pull (m + n)).2.done = true := by
    rw [pull_add, pull_of_done done]
    exact done
  rw [records_eq_pull finished, Nat.add_comm, pull_add]
  exact List.prefix_append _ _

/-! ## How a stream ends -/

/-- What ends a stream: that no frame follows, a frame that cannot be read, or a body that is
refused with a fatal error. -/
inductive Ends (t : Receiver σ) : Option DecodeError → Prop
  | clean {source : Source} : Frame.read t.source = (.ok none, source) → Ends t none
  | unread {source : Source} {cause : FrameError} :
    Frame.read t.source = (.error cause, source) → Ends t (some (.frame cause))
  | refused {source : Source} {body : Bytes} {e : DecodeError} :
    Frame.read t.source = (.ok (some body), source) →
    (t.session.acceptBody t.table t.store body).1 = .error e → e.isFatal = true → Ends t (some e)

/-- What ends a stream is its fault from then on. -/
theorem ends_of_step (sound : t.fault = none) (stepped : t.step = (.ended, u)) :
    t.Ends u.fault := by
  have outcome := t.stepped_step
  rw [stepped] at outcome
  cases outcome with
  | unread read => exact .unread read
  | finished read =>
    change t.Ends t.fault
    rw [sound]
    exact .clean read
  | framed read taken =>
    cases taken with
    | ended refused fatal => exact .refused read (congrArg Prod.fst refused) fatal

theorem Ends.fault_eq {e : DecodeError} (ends : t.Ends (some e)) (running : t.done = false)
    (sound : t.fault = none) : t.step.2.fault = some e := by
  cases ends with
  | unread read => rw [step, read]; rfl
  | refused read refused fatal =>
    rcases step_of_refused running sound read refused with ⟨-, -, left⟩
    rw [left.fault, if_pos fatal]

theorem Ends.isFatal {e : DecodeError} (ends : t.Ends (some e)) : e.isFatal = true := by
  cases ends with
  | unread read => rfl
  | refused read refused fatal => exact fatal

/-- Only a step that ends the stream leaves the receiver done. -/
theorem ended_of_step {step : Step} (running : t.done = false) (stepped : t.step = (step, u))
    (finished : u.done = true) : step = .ended := by
  have outcome := t.stepped_step
  rw [stepped] at outcome
  cases outcome with
  | unread read => rfl
  | finished read => rfl
  | framed read taken =>
    cases taken with
    | ended refused fatal => rfl
    | _ =>
      have runs : t.done = true := finished
      rw [running] at runs
      cases runs

/-- In front of the end of a run, a receiver takes the step that ends it. -/
theorem Reaches.last_step (running : r.done = false) (reached : r.Reaches given u)
    (finished : u.done = true) :
    ∃ t, r.Reaches given t ∧ t.done = false ∧ t.step = (.ended, u) := by
  cases reached with
  | start =>
    rw [running] at finished
    cases finished
  | @step records t _ step before going stepped =>
    obtain rfl := ended_of_step going stepped finished
    refine ⟨t, ?_, going, stepped⟩
    rwa [Step.records, List.append_nil]

/-- A receiver has the fault that ended its run, and no other. -/
theorem Reaches.fault_iff (running : r.done = false) (sound : r.fault = none)
    (reached : r.Reaches given u) (e : DecodeError) :
    u.fault = some e ↔ ∃ before, r.Reaches given before ∧ before.done = false ∧
      before.step = (.ended, u) ∧ before.Ends (some e) := by
  constructor
  · intro fault
    have finished : u.done = true := by
      cases lasts : u.done with
      | true => rfl
      | false =>
        rw [reached.becomes.fault_eq_none sound lasts] at fault
        cases fault
    rcases reached.last_step running finished with ⟨before, point, going, stepped⟩
    refine ⟨before, point, going, stepped, ?_⟩
    rw [← fault]
    exact ends_of_step (point.becomes.fault_eq_none sound going) stepped
  · rintro ⟨before, point, going, stepped, ends⟩
    have last := ends.fault_eq going (point.becomes.fault_eq_none sound going)
    rwa [stepped] at last

/-! ## Requests and one stream -/

/-- A receiver whose end has been seen. It has nothing for any request and stays as it is as a
whole, its transport and the count of calls to it included. -/
structure Over (t : Receiver σ) : Prop where
  done : t.done = true
  next : t.next = (none, t)
  drain : ∀ {τ : Type} (sink : RecordSink τ) (state : τ),
    t.drain sink state = (.all 0, state, t) ∧ handedTo sink t state = []
  serve : ∀ requests : List Request, t.serve requests = ([], t)

theorem drain_of_done (done : r.done = true) (sink : RecordSink τ) (state : τ) :
    r.drain sink state = (.all 0, state, r) :=
  drainFrom_of_none (next_of_done done)

theorem over_of_done (done : t.done = true) : t.Over where
  done := done
  next := next_of_done done
  drain sink state := by
    refine ⟨drain_of_done done sink state, ?_⟩
    rw [handedTo, drain_of_done done]
  serve requests := by
    rcases t.exists_pull_serve requests with ⟨n, eq⟩
    rw [eq, pull_of_done done]

/-- How a receiver stands that has handed out some records of a run. -/
structure Standing (r : Receiver σ) (given : List Record) (t : Receiver σ) : Prop where
  /-- These are the first records of the run. -/
  first : given = r.records.1.take given.length
  reached : r.Reaches given t
  /-- While the stream lasts, there is no fault, and the records may as well have been pulled one by
  one. -/
  running : t.done = false → t = (r.pull given.length).2 ∧ t.fault = none
  ended : t.done = true → (given, t) = r.records
  /-- The fault is the error that ended the stream. -/
  fault : ∀ e, t.fault = some e ↔
    ∃ before, r.Reaches given before ∧ before.done = false ∧ before.step = (.ended, t) ∧
      before.Ends (some e)
  fatal : ∀ e, t.fault = some e → e.isFatal = true ∧ t.done = true

theorem standing_of_pull {n : Nat} (running : r.done = false) (sound : r.fault = none)
    (pulled : r.pull n = (given, u)) : Standing r given u := by
  have reached := Reaches.pull r n
  have first := r.pull_isPrefix_records n
  rw [pulled] at reached first
  have fault := reached.fault_iff running sound
  refine ⟨List.prefix_iff_eq_take.1 first, reached, fun lasts => ⟨?_, ?_⟩, fun finished => ?_,
    fault, fun e here => ?_⟩
  · rw [length_of_pull pulled lasts, pulled]
  · exact reached.becomes.fault_eq_none sound lasts
  · rw [records_eq_pull (by rw [pulled]; exact finished), pulled]
  · rcases (fault e).1 here with ⟨before, -, -, stepped, ends⟩
    exact ⟨ends.isFatal, done_of_step stepped⟩

/-- Whatever a caller asks for, in whatever order and with whatever sinks: the records handed out
are the first of the run, each once; a drain that fails has taken just the record that was refused
from the stream beyond those that the sink took, and leaves the receiver as so many pulls do; a
request that finds the end changes nothing any more, and neither does any behind it. -/
theorem requests_share_one_stream (source : Source) (table : CallTable) (store : BufferStore σ)
    (kept : σ) (requests : List Request) :
    let r := start source table store kept
    let given := (r.serve requests).1
    let t := (r.serve requests).2
    Standing r given t ∧
      (t.next.1 = none → t.next.2.Over) ∧
      (∀ {τ : Type} (sink : RecordSink τ) (state : τ),
        let more := handedTo sink t state
        let after := (t.drain sink state).2.2
        Drains sink t state 0 more (t.drain sink state) ∧
          ((t.drain sink state).1 = .refused → after = (r.pull (given ++ more).length).2) ∧
          ∀ taken, (t.drain sink state).1 = .all taken →
            after.Over ∧ (given ++ more, after) = r.records) ∧
      (∀ e later, t.fault = some e → (t.serve later).2.fault = some e) := by
  intro r given t
  rcases r.exists_pull_serve requests with ⟨n, served⟩
  have pulled : r.pull n = (given, t) := served.symm
  have standing : Standing r given t := standing_of_pull rfl rfl pulled
  refine ⟨standing, fun last => ?_, fun sink state => ?_, fun e later fault => ?_⟩
  · exact over_of_done (done_of_next (Prod.ext last rfl))
  · intro more after
    have drains := drains_drain sink t state
    rcases drains.exists_pull with ⟨m, drained, length, finished⟩
    have both : r.pull (n + m) = (given ++ more, after) := by
      rw [pull_add, pulled, drained]
    refine ⟨drains, fun refused => ?_, fun taken all => ?_⟩
    · have lasts : t.done = false := by
        cases done : t.done with
        | false => rfl
        | true =>
          rw [drain_of_done done] at refused
          cases refused
      rw [List.length_append, length_of_pull pulled lasts, ← length refused, both]
    · refine ⟨over_of_done (finished taken all), ?_⟩
      rw [records_eq_pull (by rw [both]; exact finished taken all), both]
  · rw [(over_of_done (standing.fatal e fault).2).serve later]
    exact fault

/-- Three notes, and a body that is no document. -/
def notesAndFault : Bytes := [noteBody, noteBody, noteBody, [7]].flatMap Frame.encode

/-- One record by itself, one to a sink that refuses it, and all others to one that takes them. -/
def oneByOne : List Request :=
  [.next, .drain (.upTo (some 0)) #[], .drain (.upTo none) #[]]

theorem requests_share_one_stream_oneByOne :
    let r := start (.ofBytes notesAndFault (some 3) [(9, .interrupted)]) (.ofLists [] [] [] [])
      .discard ()
    let t := (r.serve (oneByOne.take 1)).2
    let u := (r.serve (oneByOne.take 2)).2
    let last := (r.serve oneByOne).2
    (t.drain (.upTo (some 0)) #[]).1 = .refused ∧
      (t.drain (.upTo (some 0)) #[]).2.2 = (r.pull 2).2 ∧
      (u.drain (.upTo none) #[]).1 = .all 1 ∧ (u.drain (.upTo none) #[]).2.2.Over ∧
      last.fault = some .malformed ∧ last.next.2.Over ∧
      (last.serve oneByOne).2.fault = some .malformed := by
  intro r t u last
  rcases requests_share_one_stream (.ofBytes notesAndFault (some 3) [(9, .interrupted)])
    (.ofLists [] [] [] []) .discard () (oneByOne.take 1) with ⟨-, -, drained, -⟩
  rcases requests_share_one_stream (.ofBytes notesAndFault (some 3) [(9, .interrupted)])
    (.ofLists [] [] [] []) .discard () (oneByOne.take 2) with ⟨-, -, drained', -⟩
  rcases requests_share_one_stream (.ofBytes notesAndFault (some 3) [(9, .interrupted)])
    (.ofLists [] [] [] []) .discard () oneByOne with ⟨-, finished, -, stays⟩
  have refused : (t.drain (.upTo (some 0)) #[]).1 = .refused := by decide +kernel
  have two : ((r.serve (oneByOne.take 1)).1 ++ handedTo (.upTo (some 0)) t #[]).length = 2 := by
    decide +kernel
  have all : (u.drain (.upTo none) #[]).1 = .all 1 := by decide +kernel
  have fault : last.fault = some .malformed := by decide +kernel
  have nothing : last.next.1.isNone = true := by decide +kernel
  have behind := (drained (.upTo (some 0)) #[]).2.1 refused
  rw [two] at behind
  exact ⟨refused, behind, all, ((drained' (.upTo none) #[]).2.2 1 all).1, fault,
    finished (Option.isNone_iff_eq_none.1 nothing), stays .malformed oneByOne fault⟩

end Receiver

end CallTrace
