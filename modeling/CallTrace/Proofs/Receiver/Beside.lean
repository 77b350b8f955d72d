import CallTrace.Proofs.Receiver.Calls
import CallTrace.Proofs.Receiver.Pull
import Mathlib.Data.List.Forall2

/-!
Two receivers side by side. A `Pairing` says which transports, states and records of the two belong
together. If bodies get answers that belong together (`Accepts`), so do the receivers behind each
body, and with it everything that they yield: over given bodies (`Beside.feed`, `Beside.outcome`),
and if transports that belong together are read alike (`Reads`) also pull by pull (`Beside.pull`).
`Agrees` says what states must have in common for that.

The comparisons of runs with other transports, other stores of dumps or one frame more are
instances.
-/

namespace CallTrace.Receiver

variable {σ τ : Type}

/-- Which transports, states and records of two receivers belong together. -/
structure Pairing (σ τ : Type) where
  sources : Source → Source → Prop
  sessions : Session σ → Session τ → Prop
  records : Record → Record → Prop

namespace Pairing

variable {p : Pairing σ τ} {more : Nat} {r : Receiver σ} {r' : Receiver τ}

/-- Answers to one body that belong together: records that do, or the same refusal. -/
inductive Answers (p : Pairing σ τ) : Except DecodeError (Option Record) × Session σ →
    Except DecodeError (Option Record) × Session τ → Prop
  | record {a b : Record} {s : Session σ} {s' : Session τ} :
    p.records a b → p.sessions s s' → Answers p (.ok (some a), s) (.ok (some b), s')
  | silence {s : Session σ} {s' : Session τ} :
    p.sessions s s' → Answers p (.ok none, s) (.ok none, s')
  | refusal {e : DecodeError} {s : Session σ} {s' : Session τ} :
    p.sessions s s' → Answers p (.error e, s) (.error e, s')

/-- States that belong together answer every body alike. -/
def Accepts (p : Pairing σ τ) (table : CallTable) (store : BufferStore σ) (store' : BufferStore τ) :
    Prop :=
  ∀ s s' body, p.sessions s s' →
    p.Answers (s.acceptBody table store body) (s'.acceptBody table store' body)

/-- Transports that belong together are read alike. -/
def Reads (p : Pairing σ τ) : Prop :=
  ∀ s s', p.sources s s' →
    (Frame.read s').1 = (Frame.read s).1 ∧ p.sources (Frame.read s).2 (Frame.read s').2

/-- Frames that come to the same, but for records that belong together. -/
inductive Steps (p : Pairing σ τ) : Step → Step → Prop
  | yielded {a b : Record} : p.records a b → Steps p (.yielded a) (.yielded b)
  | skipped : Steps p .skipped .skipped
  | dropped : Steps p .dropped .dropped
  | ended : Steps p .ended .ended

/-- Receivers that belong together, of which the second has counted `more` bytes than the first. -/
structure Beside (p : Pairing σ τ) (more : Nat) (r : Receiver σ) (r' : Receiver τ) : Prop where
  source : p.sources r.source r'.source
  table : r'.table = r.table
  accepts : p.Accepts r.table r.store r'.store
  session : p.sessions r.session r'.session
  consumed : r'.consumed = r.consumed + more
  done : r'.done = r.done
  fault : r'.fault = r.fault
  dropped : r'.dropped = r.dropped

theorem Steps.records {step step' : Step} (steps : p.Steps step step') :
    List.Forall₂ p.records step.records step'.records := by
  cases steps with
  | yielded same => exact .cons same .nil
  | skipped => exact .nil
  | dropped => exact .nil
  | ended => exact .nil

/-- Receivers in the same state, on transports that belong together. -/
def equal (sources : Source → Source → Prop) : Pairing σ σ := ⟨sources, Eq, Eq⟩

theorem equal_accepts (sources : Source → Source → Prop) (table : CallTable)
    (store : BufferStore σ) : (equal sources).Accepts table store store := by
  rintro s _ body rfl
  cases s.acceptBody table store body with
  | mk answer session =>
    rcases answer with e | record?
    · exact .refusal rfl
    · rcases record? with - | record
      · exact .silence rfl
      · exact .record rfl rfl

/-- What states that belong together have in common, and what keeps them together. -/
structure Agrees (p : Pairing σ τ) (table : CallTable) (store : BufferStore σ)
    (store' : BufferStore τ) : Prop where
  records : ∀ a, p.records a a
  known : ∀ s s', p.sessions s s' → ∀ index, s'.schema.get? index = s.schema.get? index
  pid : ∀ s s', p.sessions s s' → s'.pid = s.pid
  calls : ∀ s s', p.sessions s s' → ∀ d data args,
    p.records (s.callRecord d data args) (s'.callRecord d data args)
  announced : ∀ s s', p.sessions s s' → ∀ pid, p.sessions { s with pid } { s' with pid }
  described : ∀ s s', p.sessions s s' → ∀ info,
    p.sessions { s with schema := s.schema.describe table info }
      { s' with schema := s'.schema.describe table info }
  kept : ∀ s s', p.sessions s s' → ∀ digest payload,
    p.sessions { s with kept := (store.keep s.kept digest payload).2 }
      { s' with kept := (store'.keep s'.kept digest payload).2 }

variable {table : CallTable} {store : BufferStore σ} {store' : BufferStore τ} {s : Session σ}
  {s' : Session τ}

/-- Data are answered alike by what is known of their index and by the process announced last. -/
theorem Agrees.acceptData (agrees : p.Agrees table store store') (same : p.sessions s s')
    (data : CallData) :
    (∃ e, s.acceptData data = (.error e, s) ∧ s'.acceptData data = (.error e, s')) ∨
      ∃ a b pid, p.records a b ∧ s.acceptData data = (.ok a, { s with pid }) ∧
        s'.acceptData data = (.ok b, { s' with pid }) := by
  have pid := agrees.pid s s' same
  have still : s' = { s' with pid := s.pid } := by rw [← pid]
  unfold Session.acceptData
  rw [agrees.known s s' same]
  cases s.schema.get? data.index with
  | none => exact .inl ⟨_, rfl, rfl⟩
  | some d =>
    dsimp only
    cases d.bind? data.args with
    | none => exact .inl ⟨_, rfl, rfl⟩
    | some args =>
      dsimp only
      by_cases process : d.name = ProcessInfo.processMarker
      · rw [if_pos process, if_pos process]
        cases ProcessInfo.normalize args with
        | error e => exact .inl ⟨e, rfl, rfl⟩
        | ok info => exact .inr ⟨_, _, _, agrees.records _, rfl, rfl⟩
      · rw [if_neg process, if_neg process]
        by_cases thread : d.name = ProcessInfo.threadMarker
        · rw [if_pos thread, if_pos thread, Session.threadRecord, Session.threadRecord, pid]
          exact .inr ⟨_, _, s.pid, agrees.records _, rfl, congrArg (Prod.mk _) still⟩
        · rw [if_neg thread, if_neg thread]
          exact .inr ⟨_, _, s.pid, agrees.calls s s' same d data args, rfl,
            congrArg (Prod.mk _) still⟩

theorem Agrees.accepts (agrees : p.Agrees table store store') :
    p.Accepts table store store' := by
  intro s s' body same
  unfold Session.acceptBody
  cases Message.decode? body with
  | none => exact .refusal same
  | some message =>
    cases message with
    | info info => exact .silence (agrees.described s s' same info)
    | buffer payload claimed =>
      dsimp only
      unfold Session.accept
      dsimp only
      cases verify payload claimed with
      | error e => exact .refusal same
      | ok digest => exact .silence (agrees.kept s s' same digest payload)
    | debug tid time text => exact .record (agrees.records _) same
    | data data =>
      dsimp only
      rw [Session.accept_data, Session.accept_data]
      rcases agrees.acceptData same data with ⟨e, left, right⟩ | ⟨a, b, pid, alike, left, right⟩
      · rw [left, right]
        exact .refusal same
      · rw [left, right]
        exact .record alike (agrees.announced s s' same pid)

/-! ## Body by body -/

theorem Beside.takeBody (beside : p.Beside more r r') (body : Bytes) :
    p.Steps (r.takeBody body).1 (r'.takeBody body).1 ∧
      p.Beside more (r.takeBody body).2 (r'.takeBody body).2 := by
  have answers : p.Answers (r.session.acceptBody r.table r.store body)
      (r'.session.acceptBody r'.table r'.store body) := by
    rw [beside.table]
    exact beside.accepts _ _ body beside.session
  have counted : r'.consumed + body.length + Frame.lengthSize
      = r.consumed + body.length + Frame.lengthSize + more := by
    rw [beside.consumed]
    omega
  unfold Receiver.takeBody
  dsimp only
  generalize r.session.acceptBody r.table r.store body = answer at answers ⊢
  generalize r'.session.acceptBody r'.table r'.store body = answer' at answers ⊢
  cases answers with
  | record same session =>
    exact ⟨.yielded same, { beside with session, consumed := counted }⟩
  | silence session => exact ⟨.skipped, { beside with session, consumed := counted }⟩
  | @refusal e _ _ session =>
    dsimp only
    split
    · exact ⟨.ended, { beside with session, consumed := counted, done := rfl, fault := rfl }⟩
    · refine ⟨.dropped, { beside with session, consumed := counted, dropped := ?_ }⟩
      exact congrArg (·.push e) beside.dropped

/-- Receivers that belong together are fed the same bodies. -/
theorem Beside.feed (beside : p.Beside more r r') (bodies : List Bytes) :
    List.Forall₂ p.records (r.feed bodies).1 (r'.feed bodies).1 ∧
      p.Beside more (r.feed bodies).2 (r'.feed bodies).2 := by
  induction bodies generalizing r r' with
  | nil => exact ⟨.nil, beside⟩
  | cons body later ih =>
    cases done : r.done with
    | true =>
      rw [feed_of_done done, feed_of_done (beside.done.trans done)]
      exact ⟨.nil, beside⟩
    | false =>
      rw [feed_cons done, feed_cons (beside.done.trans done)]
      rcases beside.takeBody body with ⟨steps, after⟩
      rcases ih after with ⟨records, last⟩
      exact ⟨List.rel_append steps.records records, last⟩

theorem Beside.finish (beside : p.Beside more r r') (e : Option FrameError) :
    p.Beside more (r.finish e) (r'.finish e) := by
  unfold Receiver.finish
  rw [beside.done]
  split
  · exact beside
  · cases e with
    | none => exact { beside with done := rfl }
    | some e => exact { beside with done := rfl, fault := rfl }

/-- Receivers that belong together are given the same bytes. -/
theorem Beside.outcome (beside : p.Beside more r r') (bytes : Bytes) (stop : Option String) :
    List.Forall₂ p.records (r.outcome bytes stop).1 (r'.outcome bytes stop).1 ∧
      p.Beside more (r.outcome bytes stop).2 (r'.outcome bytes stop).2 := by
  rcases beside.feed (Frame.bodies bytes) with ⟨records, fed⟩
  exact ⟨records, fed.finish _⟩

/-! ## Pull by pull -/

theorem Beside.step (beside : p.Beside more r r') (reads : p.Reads) :
    p.Steps r.step.1 r'.step.1 ∧ p.Beside more r.step.2 r'.step.2 := by
  rcases reads _ _ beside.source with ⟨same, source⟩
  unfold Receiver.step
  cases read : Frame.read r.source with
  | mk answer s =>
    cases read' : Frame.read r'.source with
    | mk answer' s' =>
      rw [read, read'] at same source
      obtain rfl : answer' = answer := same
      rcases answer' with e | body?
      · exact ⟨.ended, { beside with source, done := rfl, fault := rfl }⟩
      · rcases body? with - | body
        · exact ⟨.ended, { beside with source, done := rfl }⟩
        · have moved : p.Beside more (r.withSource s) (r'.withSource s') := { beside with source }
          exact moved.takeBody body

/-- A step that belongs to a given one. -/
theorem Beside.exists_step (beside : p.Beside more r r') (reads : p.Reads) {step : Step}
    {t : Receiver σ} (running : ¬ r.done = true) (stepped : r.step = (step, t)) :
    ∃ step' t', r'.done = false ∧ r'.step = (step', t') ∧ p.Steps step step' ∧
      p.Beside more t t' := by
  rcases beside.step reads with ⟨steps, after⟩
  rw [stepped] at steps after
  exact ⟨_, _, beside.done.trans (Bool.eq_false_iff.2 running), rfl, steps, after⟩

theorem Beside.next (beside : p.Beside more r r') (reads : p.Reads) :
    Option.Rel p.records r.next.1 r'.next.1 ∧ p.Beside more r.next.2 r'.next.2 := by
  fun_induction Receiver.next r generalizing r' with
  | case1 r done =>
    rw [next_of_done (beside.done.trans done)]
    exact ⟨.none, beside⟩
  | case2 r running record t stepped =>
    rcases beside.exists_step reads running stepped with ⟨_, t', running', stepped', ⟨same⟩, after⟩
    rw [next_of_step running' stepped']
    exact ⟨.some same, after⟩
  | case3 r running t stepped ih =>
    rcases beside.exists_step reads running stepped with ⟨_, t', running', stepped', ⟨⟩, after⟩
    rw [next_of_step running' stepped']
    exact ih after
  | case4 r running t stepped ih =>
    rcases beside.exists_step reads running stepped with ⟨_, t', running', stepped', ⟨⟩, after⟩
    rw [next_of_step running' stepped']
    exact ih after
  | case5 r running t stepped =>
    rcases beside.exists_step reads running stepped with ⟨_, t', running', stepped', ⟨⟩, after⟩
    rw [next_of_step running' stepped']
    exact ⟨.none, after⟩

theorem forall₂_toList {α β : Type} {related : α → β → Prop} {a : Option α} {b : Option β}
    (same : Option.Rel related a b) : List.Forall₂ related a.toList b.toList := by
  cases same with
  | some same => exact .cons same .nil
  | none => exact .nil

theorem Beside.pull (beside : p.Beside more r r') (reads : p.Reads) (n : Nat) :
    List.Forall₂ p.records (r.pull n).1 (r'.pull n).1 ∧
      p.Beside more (r.pull n).2 (r'.pull n).2 := by
  induction n with
  | zero => exact ⟨.nil, beside⟩
  | succ n ih =>
    rcases ih with ⟨records, pulled⟩
    rcases pulled.next reads with ⟨record, after⟩
    exact ⟨List.rel_append records (forall₂_toList record), after⟩

/-- Receivers that belong together have as many records. -/
theorem Beside.records (beside : p.Beside more r r') (reads : p.Reads) :
    List.Forall₂ p.records r.records.1 r'.records.1 ∧
      p.Beside more r.records.2 r'.records.2 := by
  rcases r.exists_pull_done with ⟨n, done⟩
  rcases beside.pull reads n with ⟨records, pulled⟩
  rw [records_eq_pull done, records_eq_pull (pulled.done.trans done)]
  exact ⟨records, pulled⟩

/-! ## Runs that look the same -/

/-- Runs that have come equally far and look the same, but for what is kept and for what is left of
the transports. -/
structure SameView (a : List Record × Receiver σ) (b : List Record × Receiver τ) : Prop where
  records : b.1 = a.1
  schema : b.2.session.schema = a.2.session.schema
  pid : b.2.session.pid = a.2.session.pid
  consumed : b.2.consumed = a.2.consumed
  done : b.2.done = a.2.done
  fault : b.2.fault = a.2.fault
  dropped : b.2.dropped = a.2.dropped

theorem Beside.sameView {a : List Record × Receiver σ} {b : List Record × Receiver τ}
    (plain : p.records = Eq)
    (known : ∀ s s', p.sessions s s' → s'.schema = s.schema ∧ s'.pid = s.pid)
    (records : List.Forall₂ p.records a.1 b.1) (beside : p.Beside 0 a.2 b.2) : SameView a b := by
  rw [plain, List.forall₂_eq_eq_eq] at records
  rcases known _ _ beside.session with ⟨schema, pid⟩
  exact ⟨records.symm, schema, pid, beside.consumed, beside.done, beside.fault, beside.dropped⟩

end Pairing

end CallTrace.Receiver
