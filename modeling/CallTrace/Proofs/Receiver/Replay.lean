import CallTrace.Proofs.Receiver.Beside

/-!
A description that is sent once more. What a receiver remembers is told by the last description that
says something of it (`get_feed`), so a copy finds its own descriptor in place as long as no other
description of its index has come.

Flag tables are told under the name of a call, so other indices may have changed them in the
meantime, and then the copy puts its own back. `replay_changes_flags_alone` says that it changes
nothing else, and nothing at all where the tables still stand (`TablesStand`).
-/

namespace CallTrace

variable {σ α : Type}

/-! ## What descriptions say -/

/-- The description in the body of a frame. -/
def infoIn? (body : Bytes) : Option CallInfo := (descriptionIn? body).map .ofDocument

theorem infoIn?_eq_some_iff {body : Bytes} {info : CallInfo} :
    infoIn? body = some info ↔ Message.decode? body = some (.info info) := by
  rw [infoIn?, descriptionIn?, Message.decode?]
  cases Document.parseBody? body with
  | none =>
    constructor
    · intro some
      cases some
    · intro some
      cases some
  | some d =>
    rw [Option.filter_some, Option.map_some, Option.some_inj, Message.ofDocument_eq_info_iff]
    by_cases kind : d.getString? "type" = some "info"
    · rw [if_pos (decide_eq_true kind), Option.map_some, Option.some_inj]
      exact ⟨fun same => ⟨kind, same⟩, And.right⟩
    · rw [if_neg (mt of_decide_eq_true kind), Option.map_none]
      exact ⟨fun same => absurd same.symm (Option.some_ne_none _), fun both => absurd both.1 kind⟩

/-- What the body of a frame says of a thing that descriptions may tell. -/
def toldIn? (told : CallInfo → Option α) (body : Bytes) : Option α := (infoIn? body).bind told

/-- What some frames say of it last. -/
def lastTold? (told : CallInfo → Option α) (bodies : List Bytes) : Option α :=
  lastOf? (toldIn? told) bodies

/-- What one frame says stands if no later frame says anything else. -/
theorem lastTold?_of_said {told : CallInfo → Option α} {before between : List Bytes} {body : Bytes}
    {a : α} (said : toldIn? told body = some a)
    (stands : ∀ b, lastTold? told between = some b → b = a) :
    lastTold? told (before ++ body :: between) = some a := by
  rw [lastTold?, ← List.singleton_append, lastOf?_append, lastOf?_append, lastOf?_singleton, said]
  cases later : lastOf? (toldIn? told) between with
  | none => rfl
  | some b => rw [stands b later]; rfl

namespace Schema

variable {schema : Schema} {table : CallTable} {info : CallInfo}

theorem descriptors_describe (known : schema.get? info.index = some (.ofInfo table info)) :
    (schema.describe table info).descriptors = schema.descriptors :=
  SortedMap.insert_eq_self known

/-- Whether the tables of a description are in place. -/
structure HasTables (schema : Schema) (info : CallInfo) : Prop where
  values : info.valueTables.isEmpty = false →
    schema.valueTables.get? info.name = some info.valueTables
  masks : info.maskTables.isEmpty = false →
    schema.maskTables.get? info.name = some info.maskTables

/-- A description of which everything is in place changes nothing. -/
theorem HasTables.describe (tables : schema.HasTables info)
    (known : schema.get? info.index = some (.ofInfo table info)) :
    schema.describe table info = schema := by
  rcases tables with ⟨values, masks⟩
  have descriptors := descriptors_describe known
  rcases schema with ⟨_, valueTables, maskTables⟩
  unfold Schema.describe at descriptors ⊢
  rw [Schema.mk.injEq]
  refine ⟨descriptors, ?_, ?_⟩
  · cases none : info.valueTables.isEmpty with
    | true => rfl
    | false => exact SortedMap.insert_eq_self (values none)
  · cases none : info.maskTables.isEmpty with
    | true => rfl
    | false => exact SortedMap.insert_eq_self (masks none)

end Schema

theorem schema_acceptBody_eq (session : Session σ) (table : CallTable) (store : BufferStore σ)
    (body : Bytes) :
    (session.acceptBody table store body).2.schema
      = match infoIn? body with
        | some info => session.schema.describe table info
        | none => session.schema := by
  rw [Session.schema_acceptBody, infoIn?]
  cases descriptionIn? body <;> rfl

/-! ## States that differ in the tables of one call -/

/-- Whether two records are the same, or calls of one name that differ in their flags. -/
inductive Record.SameButFlags (name : String) : Record → Record → Prop
  | same (record : Record) : SameButFlags name record record
  | call {call : ApiCall} (flags : SortedMap String String) : call.api = name →
    SameButFlags name (.call call) (.call { call with flags })

/-- States that differ at most in the tables for calls of one name. -/
structure Session.SameButTables (name : String) (s s' : Session σ) : Prop where
  descriptors : s'.schema.descriptors = s.schema.descriptors
  values : ∀ other, other ≠ name →
    s'.schema.valueTables.get? other = s.schema.valueTables.get? other
  masks : ∀ other, other ≠ name →
    s'.schema.maskTables.get? other = s.schema.maskTables.get? other
  pid : s'.pid = s.pid
  kept : s'.kept = s.kept

namespace Session.SameButTables

variable {name : String} {s s' : Session σ}

theorem refl (name : String) (s : Session σ) : s.SameButTables name s :=
  ⟨rfl, fun _ _ => rfl, fun _ _ => rfl, rfl, rfl⟩

/-- The same description of both. -/
theorem describe (same : s.SameButTables name s') (table : CallTable) (info : CallInfo) :
    ({ s with schema := s.schema.describe table info } : Session σ).SameButTables name
      { s' with schema := s'.schema.describe table info } where
  descriptors := congrArg (·.insert info.index (.ofInfo table info)) same.descriptors
  values := fun other apart => by
    dsimp only
    rw [Schema.valueTables_describe, Schema.valueTables_describe, same.values other apart]
  masks := fun other apart => by
    dsimp only
    rw [Schema.maskTables_describe, Schema.maskTables_describe, same.masks other apart]
  pid := same.pid
  kept := same.kept

theorem callRecord (same : s.SameButTables name s') (d : CallDescriptor) (data : CallData)
    (args : NamedValues) :
    (s.callRecord d data args).SameButFlags name (s'.callRecord d data args) := by
  unfold Session.callRecord
  by_cases here : d.name = name
  · rw [same.pid]
    exact .call _ here
  · have values := same.values d.name here
    have masks := same.masks d.name here
    unfold Schema.hasFlags Schema.resolveFlags SortedMap.contains
    rw [same.pid, values, masks]
    exact .same _

end Session.SameButTables

namespace Receiver

variable {r t : Receiver σ} {body : Bytes} {bodies : List Bytes} {name : String} {info : CallInfo}

/-! ## Many frames -/

/-- Receivers that differ at most in the tables for calls of one name. -/
def sameButTables (σ : Type) (name : String) : Pairing σ σ :=
  ⟨fun _ _ => True, Session.SameButTables name, Record.SameButFlags name⟩

theorem sameButTables_agrees (name : String) (table : CallTable) (store : BufferStore σ) :
    (sameButTables σ name).Agrees table store store where
  records := .same
  known _ _ same index := congrArg (·.get? index) same.descriptors
  pid _ _ same := same.pid
  calls _ _ same := same.callRecord
  announced _ _ same _ := { same with pid := rfl }
  described _ _ same := same.describe table
  kept s s' same digest payload := by
    refine { same with kept := ?_ }
    rw [same.kept]

/-- A receiver has the schema of the descriptions that it was fed. -/
theorem schema_feed (running : (r.feed bodies).2.done = false) :
    (r.feed bodies).2.session.schema
      = r.session.schema.describeAll ((bodies.filterMap infoIn?).map fun info => (r.table, info)) := by
  induction bodies generalizing r with
  | nil => rfl
  | cons body later ih =>
    cases done : r.done with
    | true =>
      rw [feed_of_done done, done] at running
      cases running
    | false =>
      rw [feed_cons done] at running ⊢
      rcases takeBody_session r body with ⟨table, session⟩
      rw [ih running, table, session, schema_acceptBody_eq]
      cases here : infoIn? body with
      | none => rw [List.filterMap_cons_none here]
      | some info => rw [List.filterMap_cons_some here, List.map_cons, Schema.describeAll_cons]

/-- What a receiver remembers of a thing is what the descriptions said of it last. -/
theorem get_feed (get : Schema → Option α) (told : CallInfo → Option α)
    (describes : ∀ (schema : Schema) info,
      get (schema.describe r.table info) = (told info).or (get schema))
    (running : (r.feed bodies).2.done = false) :
    get (r.feed bodies).2.session.schema
      = (lastTold? told bodies).or (get r.session.schema) := by
  rw [schema_feed running, Schema.get_describeAll get fun call => told call.2]
  · rw [lastTold?, lastOf?, lastOf?, List.filterMap_map, List.filterMap_filterMap]
    rfl
  · intro schema call mem
    rcases List.mem_map.1 mem with ⟨info, -, rfl⟩
    exact describes schema info

/-! ## A description once more -/

/-- Whether the tables of a description still stand behind some frames: of each kind that it has,
the tables that its calls were given last, if they were given any, are the same. -/
structure TablesStand (info : CallInfo) (between : List Bytes) : Prop where
  values : info.valueTables.isEmpty = false → ∀ tables,
    lastTold? (CallInfo.valueTables? info.name) between = some tables → tables = info.valueTables
  masks : info.maskTables.isEmpty = false → ∀ tables,
    lastTold? (CallInfo.maskTables? info.name) between = some tables → tables = info.maskTables

theorem takeBody_of_info (described : Message.decode? body = some (.info info)) :
    r.takeBody body = (.skipped, { r.counting body with
      session := { r.session with schema := r.session.schema.describe r.table info } }) := by
  unfold takeBody Session.acceptBody
  rw [described]
  rfl

/-- A copy of a description whose descriptor is in place. -/
theorem feed_copy (described : Message.decode? body = some (.info info))
    (known : t.done = false → t.session.schema.get? info.index = some (.ofInfo t.table info)) :
    (t.feed [body]).1 = [] ∧ ∃ more, (sameButTables σ info.name).Beside more t (t.feed [body]).2 := by
  have accepts := (sameButTables_agrees info.name t.table t.store).accepts
  cases done : t.done with
  | true =>
    rw [feed_of_done done]
    exact ⟨rfl, 0, ⟨trivial, rfl, accepts, .refl _ _, rfl, rfl, rfl, rfl⟩⟩
  | false =>
    rw [feed_cons done, takeBody_of_info described]
    refine ⟨rfl, body.length + Frame.lengthSize,
      ⟨trivial, rfl, accepts, ?_, Nat.add_assoc .., rfl, rfl, rfl⟩⟩
    refine ⟨Schema.descriptors_describe (known done), ?_, ?_, rfl, rfl⟩
    · intro other apart
      have untold : info.valueTables? other = none := if_neg fun both => apart both.1.symm
      change (t.session.schema.describe t.table info).valueTables.get? other = _
      rw [Schema.valueTables_describe, untold, Option.none_or]
    · intro other apart
      have untold : info.maskTables? other = none := if_neg fun both => apart both.1.symm
      change (t.session.schema.describe t.table info).maskTables.get? other = _
      rw [Schema.maskTables_describe, untold, Option.none_or]

/-- A copy of a description of which everything is in place. -/
theorem feed_copy_of_hasTables (described : Message.decode? body = some (.info info))
    (known : t.done = false → t.session.schema.get? info.index = some (.ofInfo t.table info))
    (stands : t.done = false → t.session.schema.HasTables info) :
    ∃ more, (Pairing.equal fun _ _ => True).Beside more t (t.feed [body]).2 := by
  have accepts := Pairing.equal_accepts (fun _ _ => True) t.table t.store
  cases done : t.done with
  | true =>
    rw [feed_of_done done]
    exact ⟨0, ⟨trivial, rfl, accepts, rfl, rfl, rfl, rfl, rfl⟩⟩
  | false =>
    rw [feed_cons done, takeBody_of_info described, (stands done).describe (known done)]
    exact ⟨body.length + Frame.lengthSize,
      ⟨trivial, rfl, accepts, rfl, Nat.add_assoc .., rfl, rfl, rfl⟩⟩

variable {before between : List Bytes}

/-- The descriptor of an index is in place if no other description of the index has come. -/
theorem get?_feed_of_alone (described : Message.decode? body = some (.info info))
    (alone : ∀ other ∈ between, ∀ later, Message.decode? other = some (.info later) →
      later.index ≠ info.index)
    (running : (r.feed (before ++ body :: between)).2.done = false) :
    (r.feed (before ++ body :: between)).2.session.schema.get? info.index
      = some (.ofInfo r.table info) := by
  rw [get_feed (·.get? info.index) (CallInfo.descriptor? r.table info.index)
    (fun schema other => schema.get?_describe r.table other info.index) running]
  have said : toldIn? (CallInfo.descriptor? r.table info.index) body
      = some (.ofInfo r.table info) := by
    rw [toldIn?, infoIn?_eq_some_iff.2 described]
    exact if_pos rfl
  have silent : lastTold? (CallInfo.descriptor? r.table info.index) between = none := by
    rw [lastTold?, lastOf?, List.getLast?_eq_none_iff, List.filterMap_eq_nil_iff]
    intro other mem
    rw [toldIn?]
    cases here : infoIn? other with
    | none => rfl
    | some later => exact if_neg (alone other mem later (infoIn?_eq_some_iff.1 here))
  have stands : ∀ d, lastTold? (CallInfo.descriptor? r.table info.index) between = some d →
      d = .ofInfo r.table info := by
    intro d later
    rw [silent] at later
    cases later
  rw [lastTold?_of_said said stands]
  rfl

/-- The tables of a description are in place if they still stand. -/
theorem hasTables_feed (described : Message.decode? body = some (.info info))
    (stand : TablesStand info between)
    (running : (r.feed (before ++ body :: between)).2.done = false) :
    (r.feed (before ++ body :: between)).2.session.schema.HasTables info where
  values some := by
    rw [get_feed (·.valueTables.get? info.name) (CallInfo.valueTables? info.name)
      (fun schema other => schema.valueTables_describe r.table other info.name) running]
    have said : toldIn? (CallInfo.valueTables? info.name) body = .some info.valueTables := by
      rw [toldIn?, infoIn?_eq_some_iff.2 described]
      exact if_pos ⟨rfl, some⟩
    rw [lastTold?_of_said said (stand.values some)]
    rfl
  masks some := by
    rw [get_feed (·.maskTables.get? info.name) (CallInfo.maskTables? info.name)
      (fun schema other => schema.maskTables_describe r.table other info.name) running]
    have said : toldIn? (CallInfo.maskTables? info.name) body = .some info.maskTables := by
      rw [toldIn?, infoIn?_eq_some_iff.2 described]
      exact if_pos ⟨rfl, some⟩
    rw [lastTold?_of_said said (stand.masks some)]
    rfl

/-! ## Whole streams -/

/-- How a run compares with one that is told a description of a call of the given name once more. -/
structure Replayed (name : String) (a b : List Record × Receiver σ) : Prop where
  records : List.Forall₂ (Record.SameButFlags name) a.1 b.1
  session : a.2.session.SameButTables name b.2.session
  done : b.2.done = a.2.done
  fault : b.2.fault = a.2.fault
  dropped : b.2.dropped = a.2.dropped

theorem sameButFlags_refl (name : String) (records : List Record) :
    List.Forall₂ (Record.SameButFlags name) records records :=
  List.forall₂_same.2 fun record _ => .same record

/-- What is left of the transports has no part in the comparison. -/
theorem Replayed.of_sameRun {a b a' b' : List Record × Receiver σ}
    (replayed : Replayed name a' b') (left : SameRun a a') (right : SameRun b b') :
    Replayed name a b := by
  obtain ⟨records, last⟩ := left
  obtain ⟨records', last'⟩ := right
  refine ⟨?_, ?_, ?_, ?_, ?_⟩
  · rw [records, records']
    exact replayed.records
  · rw [last, last']
    exact replayed.session
  · rw [last, last']
    exact replayed.done
  · rw [last, last']
    exact replayed.fault
  · rw [last, last']
    exact replayed.dropped

/-- A description that is sent once more, behind frames that do not describe its index, changes at
most the flags in the calls of its name. It changes nothing if its tables still stand. -/
theorem replay_changes_flags_alone (table : CallTable) (store : BufferStore σ) (kept : σ)
    {rest : Bytes} {stop : Option String} {once twice : Source}
    (described : Message.decode? body = some (.info info))
    (alone : ∀ other ∈ between, ∀ later, Message.decode? other = some (.info later) →
      later.index ≠ info.index)
    (fits : ∀ frame ∈ before ++ body :: between,
      frame.length + Frame.lengthSize ≤ Frame.maxLength)
    (supply : once.Supplies ((before ++ body :: between).flatMap Frame.encode ++ rest) stop)
    (supplyTwice : twice.Supplies
      ((before ++ body :: (between ++ [body])).flatMap Frame.encode ++ rest) stop) :
    let a := (start once table store kept).records
    let b := (start twice table store kept).records
    Replayed info.name a b ∧
      (TablesStand info between → b.1 = a.1 ∧ b.2.session = a.2.session) := by
  intro a b
  let r := start once table store kept
  let front := before ++ body :: between
  let fed := (r.feed front).2
  have longer : before ++ body :: (between ++ [body]) = front ++ [body] := by
    rw [List.append_assoc, List.cons_append]
  have fitsTwice : ∀ frame ∈ front ++ [body],
      frame.length + Frame.lengthSize ≤ Frame.maxLength := by
    intro frame mem
    rcases List.mem_append.1 mem with mem | mem
    · exact fits frame mem
    · rw [List.mem_singleton.1 mem]
      exact fits body (List.mem_append_right before List.mem_cons_self)
  have known : fed.done = false →
      fed.session.schema.get? info.index = some (.ofInfo fed.table info) := by
    intro running
    rw [table_feed]
    exact get?_feed_of_alone described alone running
  rcases feed_copy described known with ⟨silent, more, beside⟩
  -- Both runs are the run over the frames in front of the copy, and what comes of the rest behind
  -- them; the copy itself yields nothing.
  have onOnce : SameRun a
      ((r.feed front).1 ++ (fed.outcome rest stop).1, (fed.outcome rest stop).2) := by
    rw [← outcome_frames_append fits]
    exact records_sameRun supply
  have onTwice : SameRun b ((r.feed front).1 ++ ((fed.feed [body]).2.outcome rest stop).1,
      ((fed.feed [body]).2.outcome rest stop).2) := by
    have run : SameRun b (r.outcome ((front ++ [body]).flatMap Frame.encode ++ rest) stop) := by
      rw [longer] at supplyTwice
      exact records_sameRun supplyTwice
    rwa [outcome_frames_append fitsTwice, feed_append, silent, List.append_nil] at run
  constructor
  · rcases beside.outcome rest stop with ⟨later, ended⟩
    refine Replayed.of_sameRun ?_ onOnce onTwice
    exact ⟨List.rel_append (sameButFlags_refl info.name _) later, ended.session, ended.done,
      ended.fault, ended.dropped⟩
  · intro stand
    have tables : fed.done = false → fed.session.schema.HasTables info :=
      hasTables_feed described stand
    rcases feed_copy_of_hasTables described known tables with ⟨_, equal⟩
    rcases equal.outcome rest stop with ⟨later, ended⟩
    have same := List.forall₂_eq_eq_eq ▸ later
    obtain ⟨records, last⟩ := onOnce
    obtain ⟨recordsTwice, lastTwice⟩ := onTwice
    constructor
    · rw [records, recordsTwice, same]
    · rw [last, lastTwice]
      exact ended.session.symm

/-- A call under an index, with a symbol for the number two in its mode. -/
def opening (index : Int64) (symbol : String) : CallInfo :=
  ⟨index, "open", none, [.bare "mode"], .ofList [("mode", .ofList [(2, symbol)])], .empty⟩

/-- The body of such a description. -/
def openingBody (index : Int64) (symbol : String) : Bytes :=
  ((Message.info (opening index symbol)).encode?).getD []

/-- Data of the second index, with the number two as mode. -/
def modeBody : Bytes :=
  ((Message.data ⟨2, 0, .zero, [.int32 2], [], .int 0, none, none⟩).encode?).getD []

/-- The flags of the calls among some records. -/
def callFlags (records : List Record) : List (List (String × String)) :=
  records.filterMap fun record => record.call?.map (·.flags.toList)

set_option maxRecDepth 4000 in
/-- The same description once more is not always without effect: another index may have given other
tables to the calls of its name. -/
theorem replay_can_change_flags :
    ¬ ∀ (before between after : List Bytes) (body : Bytes) (info : CallInfo),
      Message.decode? body = some (.info info) →
      (∀ other ∈ between,
        (∀ later, Message.decode? other = some (.info later) → later.index ≠ info.index) ∧
          ∀ data, Message.decode? other = some (.data data) → data.index ≠ info.index) →
      let wire := (before ++ body :: (between ++ after)).flatMap Frame.encode
      let wireTwice := (before ++ body :: (between ++ body :: after)).flatMap Frame.encode
      (start (.ofBytes wireTwice none []) (.ofLists [] [] [] []) .discard ()).records.1
        = (start (.ofBytes wire none []) (.ofLists [] [] [] []) .discard ()).records.1 := by
  intro claim
  have other : Message.decode? (openingBody 2 "B") = some (.info (opening 2 "B")) := by rfl
  have alone : ∀ body ∈ [openingBody 2 "B"],
      (∀ later, Message.decode? body = some (.info later) → later.index ≠ (opening 1 "A").index) ∧
        ∀ data, Message.decode? body = some (.data data) → data.index ≠ (opening 1 "A").index := by
    intro body mem
    rw [List.mem_singleton.1 mem, other]
    refine ⟨?_, nofun⟩
    rintro later ⟨⟩
    decide
  have flags := congrArg callFlags
    (claim [] [openingBody 2 "B"] [modeBody] (openingBody 1 "A") (opening 1 "A") (by rfl) alone)
  revert flags
  decide +kernel

set_option maxRecDepth 4000 in
theorem replay_changes_flags_alone_opening :
    let run (frames : List Bytes) := (start (.ofBytes (frames.flatMap Frame.encode) none [])
      (.ofLists [] [] [] []) .discard ()).records
    Replayed "open" (run [openingBody 1 "A", openingBody 2 "B", modeBody])
        (run [openingBody 1 "A", openingBody 2 "B", openingBody 1 "A", modeBody]) ∧
      (run [openingBody 1 "A", openingBody 1 "A", modeBody]).1
        = (run [openingBody 1 "A", modeBody]).1 := by
  intro run
  have supply (frames : List Bytes) :
      (Source.ofBytes ((frames ++ [modeBody]).flatMap Frame.encode) none []).Supplies
        (frames.flatMap Frame.encode ++ Frame.encode modeBody) none := by
    rw [List.flatMap_append, List.flatMap_singleton]
    exact Source.supplies_ofBytes _
  have described : Message.decode? (openingBody 1 "A") = some (.info (opening 1 "A")) := by rfl
  have other : Message.decode? (openingBody 2 "B") = some (.info (opening 2 "B")) := by rfl
  constructor
  · refine (@replay_changes_flags_alone Unit (openingBody 1 "A") (opening 1 "A") []
      [openingBody 2 "B"] (.ofLists [] [] [] []) .discard () _ _ _ _ described ?_
      (by decide +kernel) (supply _) (supply _)).1
    intro body mem later here
    rw [List.mem_singleton.1 mem, other] at here
    cases here
    decide
  · refine ((@replay_changes_flags_alone Unit (openingBody 1 "A") (opening 1 "A") [] []
      (.ofLists [] [] [] []) .discard () _ _ _ _ described nofun
      (by decide +kernel) (supply _) (supply _)).2 ?_).1
    exact ⟨fun _ => nofun, fun _ => nofun⟩

end Receiver

end CallTrace
