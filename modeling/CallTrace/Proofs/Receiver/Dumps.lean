import CallTrace.Proofs.Bytes.Checksum
import CallTrace.Proofs.Receiver.Beside

/-!
Dumps pass a gate of their own. `verifiedIn?` says which frames hold a dump that has the digest that
was claimed for it; just these are given to the store, once each and in their order, under the
digest (`kept_feed`). Nothing else that a receiver does depends on the store (`Beside` for
`anyStores`), so a store that fails is not noticed.

`dumps_pass_the_gate` says so of whole streams, and what it comes to in a directory.
-/

namespace CallTrace

variable {σ τ : Type}

/-! ## Dumps in frames -/

/-- The dump in the body of a frame, under its digest, if the digest is the one that was claimed. -/
def verifiedIn? (body : Bytes) : Option (String × Bytes) :=
  match Message.decode? body with
  | some (.buffer payload claimed) =>
    if checksum payload = claimed then some (checksum payload, payload) else none
  | _ => none

/-- The dump kept last under a name. -/
def lastDump? (dumps : List (String × Bytes)) (name : String) : Option Bytes :=
  ((dumps.filter (·.1 = name)).getLast?).map Prod.snd

theorem eq_checksum_of_verifiedIn? {body : Bytes} {dump : String × Bytes}
    (verified : verifiedIn? body = some dump) : dump.1 = checksum dump.2 := by
  unfold verifiedIn? at verified
  split at verified
  · split at verified
    · cases verified
      rfl
    · cases verified
  · cases verified

theorem lastDump?_cons (dump : String × Bytes) (later : List (String × Bytes)) (name : String) :
    lastDump? (dump :: later) name
      = (lastDump? later name).or (if dump.1 = name then some dump.2 else none) := by
  unfold lastDump?
  by_cases here : dump.1 = name
  · rw [List.filter_cons_of_pos (by simpa using here), List.getLast?_cons, if_pos here]
    cases (later.filter (·.1 = name)).getLast? <;> rfl
  · rw [List.filter_cons_of_neg (by simpa using here), if_neg here, Option.or_none]

namespace BufferStore

/-- The state of a store after some dumps. -/
def keepAll (store : BufferStore σ) (kept : σ) (dumps : List (String × Bytes)) : σ :=
  dumps.foldl (fun kept dump => (store.keep kept dump.1 dump.2).2) kept

/-- A store that also writes down what it is given, whether it keeps it or not. -/
def logged (store : BufferStore σ) : BufferStore (List (String × Bytes) × σ) :=
  ⟨fun (log, kept) digest payload =>
    ((store.keep kept digest payload).1,
      log ++ [(digest, payload)], (store.keep kept digest payload).2)⟩

theorem keepAll_logged (store : BufferStore σ) (log : List (String × Bytes)) (kept : σ)
    (dumps : List (String × Bytes)) :
    store.logged.keepAll (log, kept) dumps = (log ++ dumps, store.keepAll kept dumps) := by
  induction dumps generalizing log kept with
  | nil => rw [List.append_nil]; rfl
  | cons dump later ih =>
    have after := ih (log ++ [dump]) (store.keep kept dump.1 dump.2).2
    rwa [List.append_assoc] at after

end BufferStore

theorem BufferStore.keepAll_append (store : BufferStore σ) (kept : σ)
    (front back : List (String × Bytes)) :
    store.keepAll kept (front ++ back) = store.keepAll (store.keepAll kept front) back :=
  List.foldl_append

namespace BufferDirectory

/-- A directory that is there holds under each name the dump kept last. -/
theorem keepAll_store {d : BufferDirectory} (present : d.present = true)
    (dumps : List (String × Bytes)) :
    (store.keepAll d dumps).present = true ∧
      ∀ name, (store.keepAll d dumps).files.get? name
        = (lastDump? dumps name).or (d.files.get? name) := by
  induction dumps generalizing d with
  | nil => exact ⟨present, fun _ => rfl⟩
  | cons dump later ih =>
    let after : BufferDirectory := { d with files := d.files.insert dump.1 dump.2 }
    have kept : (store.keep d dump.1 dump.2).2 = after := by
      change (BufferDirectory.keep d dump.1 dump.2).2 = _
      rw [BufferDirectory.keep, if_pos present]
    rcases ih (d := after) present with ⟨still, files⟩
    rw [BufferStore.keepAll, List.foldl_cons, kept]
    refine ⟨still, fun name => (files name).trans ?_⟩
    rw [lastDump?_cons, SortedMap.get?_insert]
    by_cases here : dump.1 = name
    · rw [if_pos here, if_pos here.symm]
      cases lastDump? later name <;> rfl
    · rw [if_neg here, if_neg (Ne.symm here), Option.or_none]

end BufferDirectory

/-! ## One frame -/

namespace Session

/-- A dump is given to the store if it is verified, and no other body touches the store. -/
theorem kept_acceptBody (session : Session σ) (table : CallTable) (store : BufferStore σ)
    (body : Bytes) :
    (session.acceptBody table store body).2.kept
      = store.keepAll session.kept (verifiedIn? body).toList := by
  unfold acceptBody verifiedIn?
  cases Message.decode? body with
  | none => rfl
  | some message =>
    cases message with
    | info info => rfl
    | buffer payload claimed =>
      dsimp only
      unfold accept verify
      dsimp only
      by_cases same : checksum payload = claimed
      · rw [if_pos same, if_pos same]
        rfl
      · rw [if_neg same, if_neg same]
        rfl
    | debug tid time text => rfl
    | data data =>
      rcases session.acceptData_session data with ⟨pid, after⟩
      dsimp only
      rw [accept_data, after]
      rfl

/-- The states of receivers with stores of any kinds, which know the same and have the same process
in mind. -/
structure SameButKept (s : Session σ) (s' : Session τ) : Prop where
  schema : s'.schema = s.schema
  pid : s'.pid = s.pid

end Session

namespace Receiver

variable {r : Receiver σ} {r' : Receiver τ} {body : Bytes}

/-- Receivers on the same transport with stores of any kinds. -/
def anyStores (σ τ : Type) : Pairing σ τ := ⟨Eq, Session.SameButKept, Eq⟩

theorem anyStores_reads : (anyStores σ τ).Reads := by
  rintro s _ rfl
  exact ⟨rfl, rfl⟩

theorem anyStores_agrees (table : CallTable) (store : BufferStore σ) (store' : BufferStore τ) :
    (anyStores σ τ).Agrees table store store' where
  records _ := rfl
  known _ _ same index := congrArg (·.get? index) same.schema
  pid _ _ same := same.pid
  calls := by
    rintro ⟨schema, pid, kept⟩ ⟨_, _, kept'⟩ ⟨rfl, rfl⟩ d data args
    rfl
  announced _ _ same _ := ⟨same.schema, rfl⟩
  described _ _ same info := ⟨congrArg (·.describe table info) same.schema, same.pid⟩
  kept _ _ same _ _ := ⟨same.schema, same.pid⟩

/-! ## Many frames -/

theorem store_takeBody (r : Receiver σ) (body : Bytes) : (r.takeBody body).2.store = r.store := by
  have taken := r.taken_takeBody body
  cases outcome : r.takeBody body with
  | mk step t =>
    rw [outcome] at taken
    cases taken <;> rfl

/-- The dumps that pass the gate among the frames that are reached. -/
def dumpsOf (trail : List (Bytes × Step)) : List (String × Bytes) :=
  (trail.map Prod.fst).filterMap verifiedIn?

/-- The store is given just the dumps that pass the gate, once each and in their order. -/
theorem kept_feed (r : Receiver σ) (bodies : List Bytes) :
    (r.feed bodies).2.session.kept
      = r.store.keepAll r.session.kept (dumpsOf (r.trail bodies)) := by
  induction bodies generalizing r with
  | nil => rfl
  | cons body later ih =>
    cases done : r.done with
    | true =>
      rw [feed_of_done done, trail_of_done done]
      rfl
    | false =>
      have first := r.session.kept_acceptBody r.table r.store body
      rw [← (takeBody_session r body).2] at first
      rw [feed_cons done, trail_cons done]
      dsimp only
      rw [ih, store_takeBody, first, ← BufferStore.keepAll_append, dumpsOf, dumpsOf,
        List.map_cons]
      cases verified : verifiedIn? body with
      | none => rw [List.filterMap_cons_none verified]; rfl
      | some dump => rw [List.filterMap_cons_some verified]; rfl

/-- A frame with a dump is not seen in the records. -/
theorem takeBody_of_buffer {payload : Bytes} {claimed : String}
    (decoded : Message.decode? body = some (.buffer payload claimed)) :
    (r.takeBody body).1 = if checksum payload = claimed then .skipped else .dropped := by
  unfold takeBody Session.acceptBody
  rw [decoded]
  dsimp only
  unfold Session.accept verify
  dsimp only
  by_cases same : checksum payload = claimed
  · rw [if_pos same, if_pos same]
  · rw [if_neg same, if_neg same]
    rfl

theorem mem_trail {bodies : List Bytes} {step : Step} (mem : (body, step) ∈ r.trail bodies) :
    ∃ t : Receiver σ, (t.takeBody body).1 = step := by
  rcases List.append_of_mem mem with ⟨front, back, eq⟩
  exact ⟨_, (trail_split eq).2.1⟩

/-- Receivers with any stores take the same frames to the same ends. -/
theorem trail_anyStores (beside : (anyStores σ τ).Beside 0 r r') (bodies : List Bytes) :
    r'.trail bodies = r.trail bodies := by
  induction bodies generalizing r r' with
  | nil => rfl
  | cons body later ih =>
    cases done : r.done with
    | true => rw [trail_of_done done, trail_of_done (beside.done.trans done)]
    | false =>
      rcases beside.takeBody body with ⟨steps, after⟩
      have same : (r'.takeBody body).1 = (r.takeBody body).1 := by
        generalize (r.takeBody body).1 = a at steps ⊢
        generalize (r'.takeBody body).1 = b at steps ⊢
        cases steps with
        | yielded same => exact congrArg Step.yielded same.symm
        | _ => rfl
      rw [trail_cons done, trail_cons (beside.done.trans done), same, ih after]

/-! ## Whole streams -/

theorem session_finish (r : Receiver σ) (e : Option FrameError) :
    (r.finish e).session = r.session := by
  rcases r.finish_eq e with ⟨done, fault, eq⟩
  rw [eq]

theorem anyStores_start (source : Source) (table : CallTable) (store : BufferStore σ) (kept : σ)
    (store' : BufferStore τ) (kept' : τ) :
    (anyStores σ τ).Beside 0 (start source table store kept) (start source table store' kept') :=
  ⟨rfl, rfl, (anyStores_agrees table store store').accepts, ⟨rfl, rfl⟩, rfl, rfl, rfl, rfl⟩

/-- What a stream with the given frames that are reached leaves in a store. -/
theorem kept_records {source : Source} {table : CallTable} {bytes : Bytes} {stop : Option String}
    (supply : source.Supplies bytes stop) (store : BufferStore σ) (kept : σ) :
    (start source table store kept).records.2.session.kept = store.keepAll kept
      (dumpsOf ((start source table .discard ()).trail (Frame.bodies bytes))) := by
  rcases records_of_supplies (r := start source table store kept) supply rfl with ⟨after, run⟩
  rw [run, withSource]
  dsimp only
  have beside := anyStores_start source table .discard () store kept
  rw [session_finish, kept_feed, trail_anyStores beside]
  rfl

/-- Only the dumps that have the digest claimed for them are given to a store, once each and in
their order; in a directory each is in a file of its own digest. What else a receiver does depends
neither on the store nor on its failures. -/
theorem dumps_pass_the_gate (table : CallTable) {source : Source} {bytes : Bytes}
    {stop : Option String} (supply : source.Supplies bytes stop) :
    let plain := start source table .discard ()
    let trail := plain.trail (Frame.bodies bytes)
    let dumps := dumpsOf trail
    (∃ unreached, Frame.bodies bytes = trail.map Prod.fst ++ unreached ∧
        (unreached = [] ∨ ∃ front last, trail = front ++ [(last, .ended)])) ∧
      (∀ body payload claimed step, (body, step) ∈ trail →
        Message.decode? body = some (.buffer payload claimed) →
        step = if checksum payload = claimed then .skipped else .dropped) ∧
      (∀ (σ : Type) (store : BufferStore σ) (kept : σ),
        let r := start source table store kept
        let logging := start source table store.logged ([], kept)
        (∀ n, Pairing.SameView (plain.pull n) (r.pull n)) ∧
          Pairing.SameView plain.records r.records ∧
          r.records.2.session.kept = store.keepAll kept dumps ∧
          logging.records.2.session.kept = (dumps, store.keepAll kept dumps)) ∧
      (∀ dump ∈ dumps, dump.1 = checksum dump.2 ∧ BufferDirectory.IsName dump.1 ∧
        (BufferDirectory.path dump.1).toList.splitOn '/'
          = [BufferDirectory.name.toList, dump.1.toList]) ∧
      ∀ d : BufferDirectory, d.present = true →
        let after := (start source table BufferDirectory.store d).records.2.session.kept
        after.present = true ∧ ∀ name,
          after.files.get? name = (lastDump? dumps name).or (d.files.get? name) := by
  intro plain trail dumps
  refine ⟨trail_reaches rfl _, ?_, ?_, ?_, ?_⟩
  · intro body payload claimed step mem decoded
    rcases mem_trail mem with ⟨t, rfl⟩
    exact takeBody_of_buffer decoded
  · intro σ store kept r logging
    have known : ∀ (s : Session Unit) (s' : Session σ), s.SameButKept s' →
        s'.schema = s.schema ∧ s'.pid = s.pid := fun s s' same => ⟨same.schema, same.pid⟩
    have beside : (anyStores Unit σ).Beside 0 plain r := anyStores_start ..
    refine ⟨fun n => ?_, ?_, kept_records supply store kept, ?_⟩
    · rcases beside.pull anyStores_reads n with ⟨records, pulled⟩
      exact pulled.sameView rfl known records
    · rcases beside.records anyStores_reads with ⟨records, ended⟩
      exact ended.sameView rfl known records
    · rw [kept_records supply, BufferStore.keepAll_logged, List.nil_append]
  · intro dump mem
    rcases List.mem_filterMap.1 mem with ⟨frame, -, verified⟩
    have named := eq_checksum_of_verifiedIn? verified
    have isName : BufferDirectory.IsName dump.1 := by
      rw [named]
      exact BufferDirectory.isName_checksum dump.2
    exact ⟨named, isName, isName.path⟩
  · intro d present after
    have kept : after = BufferDirectory.store.keepAll d dumps := kept_records supply _ d
    rw [kept]
    exact BufferDirectory.keepAll_store present dumps

/-- A dump under its own digest, one under a path that leads elsewhere, and a note. -/
def dumped : List Message :=
  [.buffer [1] "bf8b4530d8d246dd74ac53a13471bba17941dff7", .buffer [1] "../notes",
    .debug 0 .zero ""]

/-- The frames of these. -/
def dumpedBytes : Bytes := (dumped.filterMap Message.encode?).flatMap Frame.encode

set_option maxRecDepth 4000 in
theorem dumps_pass_the_gate_dumped :
    let source := Source.ofBytes dumpedBytes (some 7) [(3, .interrupted)]
    let files := (start source (.ofLists [] [] [] []) BufferDirectory.store ⟨true, .empty⟩
      ).records.2.session.kept.files
    files.get? "bf8b4530d8d246dd74ac53a13471bba17941dff7" = some [1] ∧ files.get? "../notes" = none ∧
      (start source (.ofLists [] [] [] []) BufferStore.refuse.logged ([], ())
        ).records.2.session.kept.1 = [("bf8b4530d8d246dd74ac53a13471bba17941dff7", [1])] := by
  intro source files
  have supply : source.Supplies dumpedBytes none :=
    .ending (Source.servesAll_ofBytes dumpedBytes (by decide) (by decide))
  have dumps : dumpsOf ((start source (.ofLists [] [] [] []) .discard ()).trail
      (Frame.bodies dumpedBytes)) = [("bf8b4530d8d246dd74ac53a13471bba17941dff7", [1])] := by decide +kernel
  rcases dumps_pass_the_gate (.ofLists [] [] [] []) supply with ⟨-, -, stores, -, directory⟩
  rcases directory ⟨true, .empty⟩ rfl with ⟨-, found⟩
  rcases stores Unit .refuse () with ⟨-, -, -, logged⟩
  rw [dumps] at logged
  refine ⟨?_, ?_, congrArg Prod.fst logged⟩
  · rw [found, dumps]
    decide +kernel
  · rw [found, dumps]
    decide +kernel

end Receiver

end CallTrace
