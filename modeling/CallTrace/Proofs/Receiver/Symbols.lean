import CallTrace.Proofs.Bson.Parsed
import CallTrace.Proofs.Receiver.Replay
import CallTrace.Proofs.Value.FlagBits
import CallTrace.Proofs.Value.FlagTables

/-!
Symbols of flag arguments, from the tables on the wire. `TableInForce` says which table counts for an
argument of a call behind some frames, and `remaining` which values are arguments at all. A value
and a constant are compared by their numbers (`Bson.flagConstant?`), although the value is converted
in between, so `flags_follow_constants` says of all frames that a receiver reaches which symbol a
value gets.
-/

namespace CallTrace

variable {σ α ν : Type}

/-! ## Arguments -/

/-- Whether the entry of a value has a name. -/
def isNamed (name : String) (value : Bson × Bson) : Bool := (ArgSpec.ofBson value.1).name == name

/-- The values that are arguments, with their entries: all but the success and the result. -/
def remaining (d : Document) (values : List Bson) : List (Bson × Bson) :=
  (((argEntries d).zip values).eraseP (isNamed "is_success")).eraseP (isNamed "retval")

theorem arguments_eq_map_remaining (d : Document) (values : List Bson) :
    ((namedBy d values).eraseP (·.1 == "is_success")).eraseP (·.1 == "retval")
      = (remaining d values).map fun value => namedAs value.1 value.2 := by
  have named : namedBy d values
      = ((argEntries d).zip values).map fun value => namedAs value.1 value.2 := by
    rw [List.map_zip_eq_zipWith]
    rfl
  rw [named, List.eraseP_map, List.eraseP_map]
  rfl

/-- The first value of a name is looked up under it. -/
theorem lookup_map_namedAs (name : String) (values : List (Bson × Bson)) :
    List.lookup name (values.map fun value => namedAs value.1 value.2)
      = (values.find? (isNamed name)).map fun value => (namedAs value.1 value.2).2 := by
  induction values with
  | nil => rfl
  | cons value rest ih =>
    rw [List.map_cons, List.lookup_cons, ih]
    by_cases here : (ArgSpec.ofBson value.1).name = name
    · have equal : (name == (namedAs value.1 value.2).1) = true := beq_iff_eq.2 here.symm
      rw [equal, List.find?_cons_of_pos (by simpa [isNamed] using here)]
      rfl
    · have differs : (name == (namedAs value.1 value.2).1) = false :=
        beq_eq_false_iff_ne.2 (Ne.symm here)
      rw [differs, List.find?_cons_of_neg (by simpa [isNamed] using here)]

/-- An argument has the number of the value that it is made of. -/
theorem argumentBits?_remaining {d : Document} {values : List Bson} {name : String}
    {entry raw : Bson} {bits : UInt64}
    (first : (remaining d values).find? (isNamed name) = some (entry, raw))
    (number : raw.flagConstant? = some bits) :
    Flags.argumentBits? ((remaining d values).map fun value => namedAs value.1 value.2) name
      = some bits := by
  rw [Flags.argumentBits?, lookup_map_namedAs, first]
  exact flagBits?_apply number _

/-! ## Tables on the wire -/

/-- Which table counts for an argument of a call behind some frames: it lists the given entries, in
the given field of a description of the call, behind which no description has told anything of that
kind. -/
inductive TableInForce (field : String) (told : CallInfo → Option α) (call argument : String)
    (entries : List Bson) : List Bytes → Prop
  | intro {before between : List Bytes} {body : Bytes} {d fields : Document} :
    descriptionIn? body = some d → (CallInfo.ofDocument d).name = call →
    d.getDocument? field = some fields → fields.get? argument = some (.array entries) →
    lastTold? told between = none →
    TableInForce field told call argument entries (before ++ body :: between)

/-- The names of the tables in a description that was read are distinct. -/
theorem nodup_keys_of_descriptionIn? {body : Bytes} {d fields : Document} {field : String}
    (described : descriptionIn? body = some d) (here : d.getDocument? field = some fields) :
    (fields.map Prod.fst).Nodup := by
  have ordinary := Document.ordinarily_of_parseBody? (Option.filter_eq_some_iff.1 described).1
  exact (Bson.ordinarily_document_iff.1 (Document.ordinarily_of_getDocument? ordinary here)).1.1

/-- The table in force is what was told last. -/
theorem TableInForce.lastTold?_eq {field : String}
    {told : CallInfo → Option (SortedMap String ν)} {call argument : String} {entries : List Bson}
    {frames : List Bytes} (inForce : TableInForce field told call argument entries frames)
    (table : Bson → ν)
    (tells : ∀ (d fields : Document), (CallInfo.ofDocument d).name = call →
      d.getDocument? field = some fields →
      let tables := SortedMap.ofList (fields.map fun field => (field.1, table field.2))
      tables.isEmpty = false → told (.ofDocument d) = some tables) :
    (lastTold? told frames).bind (·.get? argument) = some (table (.array entries)) := by
  cases inForce with
  | @intro before between body d fields described named here listed untold =>
    let tables := SortedMap.ofList (fields.map fun field => (field.1, table field.2))
    have found : tables.get? argument = some (table (.array entries)) := by
      rw [Flags.get?_ofList_map (nodup_keys_of_descriptionIn? described here), listed]
      rfl
    have said : toldIn? told body = some tables := by
      rw [toldIn?, infoIn?, described]
      exact tells d fields named here (SortedMap.isEmpty_of_get? found)
    have stands : ∀ later, lastTold? told between = some later → later = tables := by
      intro later again
      rw [untold] at again
      cases again
    rw [lastTold?_of_said said stands, Option.bind_some, found]

/-- The value table that counts for an argument of a call. -/
abbrev ValueTableInForce (call argument : String) (entries : List Bson) (frames : List Bytes) :
    Prop :=
  TableInForce "flags_value" (CallInfo.valueTables? call) call argument entries frames

/-- The mask table that counts for an argument of a call. -/
abbrev MaskTableInForce (call argument : String) (entries : List Bson) (frames : List Bytes) :
    Prop :=
  TableInForce "flags_bitmask" (CallInfo.maskTables? call) call argument entries frames

theorem ValueTableInForce.lastTold?_eq {call argument : String} {entries : List Bson}
    {frames : List Bytes} (inForce : ValueTableInForce call argument entries frames) :
    (lastTold? (CallInfo.valueTables? call) frames).bind (·.get? argument)
      = some (.ofList (Flags.entriesOfBson (.array entries))) := by
  apply TableInForce.lastTold?_eq inForce fun value => .ofList (Flags.entriesOfBson value)
  intro d fields named here tables filled
  have same : (CallInfo.ofDocument d).valueTables = tables := by
    rw [CallInfo.ofDocument, here]
    rfl
  rw [CallInfo.valueTables?, same, if_pos ⟨named, filled⟩]

theorem MaskTableInForce.lastTold?_eq {call argument : String} {entries : List Bson}
    {frames : List Bytes} (inForce : MaskTableInForce call argument entries frames) :
    (lastTold? (CallInfo.maskTables? call) frames).bind (·.get? argument)
      = some (Flags.entriesOfBson (.array entries)) := by
  apply TableInForce.lastTold?_eq inForce Flags.entriesOfBson
  intro d fields named here tables filled
  have same : (CallInfo.ofDocument d).maskTables = tables := by
    rw [CallInfo.ofDocument, here]
    rfl
  rw [CallInfo.maskTables?, same, if_pos ⟨named, filled⟩]

namespace Receiver

variable {r : Receiver σ} {bodies : List Bytes}

/-! ## Calls and their flags -/

/-- Without a look at whether there are tables, the flags of a call are the same. -/
theorem callRecord_eq (session : Session σ) (d : CallDescriptor) (data : CallData)
    (args : NamedValues) :
    ∃ call, session.callRecord d data args = .call call ∧
      call.flags = session.schema.resolveFlags d.name
        ((args.eraseP (·.1 == "is_success")).eraseP (·.1 == "retval")) := by
  refine ⟨_, rfl, ?_⟩
  simp only [takeFirst_eq]
  split
  · rfl
  · next bare => rw [Schema.resolveFlags_of_not_hasFlags (Bool.eq_false_iff.2 bare)]

/-- What the tables told last give to an argument of a call. -/
theorem get?_resolveFlags_feed {source : Source} {table : CallTable} {store : BufferStore σ}
    {kept : σ} (running : ((start source table store kept).feed bodies).2.done = false)
    (call argument : String) {args : NamedValues} {bits : UInt64}
    (number : Flags.argumentBits? args argument = some bits) :
    (((start source table store kept).feed bodies).2.session.schema.resolveFlags call args).get?
        argument
      = (((lastTold? (CallInfo.valueTables? call) bodies).bind (·.get? argument)).bind
            (·.get? bits)).or
          (((lastTold? (CallInfo.maskTables? call) bodies).bind (·.get? argument)).map
            (Flags.maskSymbols bits)) := by
  have values := get_feed (·.valueTables.get? call) (CallInfo.valueTables? call)
    (fun schema info => schema.valueTables_describe table info call) running
  have masks := get_feed (·.maskTables.get? call) (CallInfo.maskTables? call)
    (fun schema info => schema.maskTables_describe table info call) running
  have none : (start source table store kept).session.schema = .empty := rfl
  simp only [none, Schema.empty, SortedMap.get?_empty, Option.or_none] at values masks
  rw [Schema.resolveFlags, values, masks, Flags.get?_resolve, number, SortedMap.get?_getD_empty,
    SortedMap.get?_getD_empty]
  exact congrArg _ Option.map_eq_bind.symm

theorem records_eq_trail {source : Source} {table : CallTable} {store : BufferStore σ} {kept : σ}
    {bytes : Bytes} {stop : Option String} (supply : source.Supplies bytes stop) :
    (start source table store kept).records.1
      = ((start source table store kept).trail (Frame.bodies bytes)).flatMap (·.2.records) := by
  rcases records_of_supplies (r := start source table store kept) supply rfl with ⟨after, run⟩
  rw [run]
  exact feed_eq_trail _ _

/-- The number of an integer is the same as a constant and as an argument, whatever the conversion
of the argument. So the value of an argument gets the symbol that its value table has for this
number, the last one if there are several; and if it has none there, it gets the symbols of all masks
of its mask table that are set in the number, in the order of the table. -/
theorem flags_follow_constants (table : CallTable) (store : BufferStore σ) (kept : σ)
    {source : Source} {bytes : Bytes} {stop : Option String}
    (supply : source.Supplies bytes stop) :
    (∀ raw : Bson, ((∃ n, raw = .int32 n) ∨ ∃ n, raw = .int64 n) →
      ∃ bits, raw.flagConstant? = some bits ∧
        ∀ converter : Converter, (converter.apply raw).flagBits? = some bits) ∧
    ∀ (front : List (Bytes × Step)) (body : Bytes) (step : Step) (back : List (Bytes × Step))
      (d : Document) (data : CallData) (argument : String) (entry raw : Bson) (bits : UInt64),
      let r := start source table store kept
      let frames := front.map Prod.fst
      let name := (CallInfo.ofDocument d).name
      r.trail (Frame.bodies bytes) = front ++ (body, step) :: back →
      Announces frames body d data →
      (remaining d data.args).find? (isNamed argument) = some (entry, raw) →
      raw.flagConstant? = some bits →
      ∃ call, step = .yielded (.call call) ∧ .call call ∈ r.records.1 ∧ call.api = name ∧
        (∀ (earlier later : List Bson) (constant : Bson) (symbol : String),
          ValueTableInForce name argument (earlier ++ .array [constant, .string symbol] :: later)
            frames →
          constant.flagConstant? = some bits →
          (∀ entry ∈ later, ∀ other, Flags.entryOfBson? entry ≠ some (bits, other)) →
          call.flags.get? argument = some symbol) ∧
        ∀ entries : List Bson, MaskTableInForce name argument entries frames →
          (∀ tables, lastTold? (CallInfo.valueTables? name) frames = some tables →
            (tables.get? argument).bind (·.get? bits) = none) →
          call.flags.get? argument = some ("|".intercalate (Flags.setSymbols bits entries)) := by
  refine ⟨?_, ?_⟩
  · rintro raw (⟨n, rfl⟩ | ⟨n, rfl⟩)
    · exact ⟨_, rfl, flagBits?_apply rfl⟩
    · exact ⟨_, rfl, flagBits?_apply rfl⟩
  · intro front body step back d data argument entry raw bits r frames name split announces first
      number
    rcases trail_split split with ⟨running, taken, -⟩
    have informed := (informed_start source table store kept).feed running
    rcases callRecord_eq (r.feed frames).2.session (.ofInfo table (.ofDocument d)) data
      (namedBy d data.args) with ⟨call, record, flags⟩
    have sameTable : (r.feed frames).2.table = table := table_feed r _
    have yields := informed.yields_call_iff.2 ⟨data, d, announces, by rw [sameTable]; exact record⟩
    have here : step = .yielded (.call call) := taken.symm.trans yields
    have resolved := get?_resolveFlags_feed running name argument
      (argumentBits?_remaining first number)
    rw [← arguments_eq_map_remaining] at resolved
    have symbols := (congrArg (·.get? argument) flags).trans resolved
    refine ⟨call, here, ?_, (follows_callRecord announces.counted record).api, ?_, ?_⟩
    · rw [records_eq_trail supply, split, List.flatMap_append, here]
      exact List.mem_append_right _ List.mem_cons_self
    · intro earlier later constant symbol inForce same last
      rw [symbols, ValueTableInForce.lastTold?_eq inForce, Option.bind_some,
        Flags.get?_entriesOfBson same last, Option.some_or]
    · intro entries inForce silent
      have unknown : ((lastTold? (CallInfo.valueTables? name) frames).bind
          (·.get? argument)).bind (·.get? bits) = none := by
        cases told : lastTold? (CallInfo.valueTables? name) frames with
        | none => rfl
        | some tables => exact silent tables told
      rw [symbols, unknown, MaskTableInForce.lastTold?_eq inForce, Option.none_or,
        Option.map_some, Flags.maskSymbols_entriesOfBson]

/-- A call with a value table for a pointer, and with a mask table for another argument. -/
def flagged : Document :=
  [("I", .int32 4), ("name", .string "open"), ("type", .string "info"),
    ("args", .array [.string "is_success", .array [.string "mode", .string "p"],
      .string "access"]),
    ("flags_value", .document [("mode", .array [.array [.int32 (-1), .string "ANY"],
      .array [.int32 2]])]),
    ("flags_bitmask", .document [("access", .array [.array [.int64 0x80000000, .string "HIGH"],
      .array [.int32 2, .string "MIDDLE"], .array [.int32 1, .string "LOW"]])])]

/-- Data of this call, with negative values for both arguments. -/
def negative : CallData :=
  ⟨4, 0, .zero, [.int32 1, .int32 (-1), .int32 (-0x7fffffff)], [], .int 0, none, none⟩

/-- The body of the description. -/
def flaggedBody : Bytes := (flagged.print?.map (·.drop Frame.lengthSize)).getD []

/-- The body of the data. -/
def negativeBody : Bytes := ((Message.data negative).encode?).getD []

/-- Both frames. -/
def flaggedBytes : Bytes := [flaggedBody, negativeBody].flatMap Frame.encode

set_option maxRecDepth 4000 in
theorem flags_follow_constants_negative :
    ∃ call, .call call ∈
        (start (.ofBytes flaggedBytes none []) (.ofLists [] [] [] []) .discard ()).records.1 ∧
      call.flags.get? "mode" = some "ANY" ∧ call.flags.get? "access" = some "HIGH|LOW" := by
  have supply : (Source.ofBytes flaggedBytes none []).Supplies flaggedBytes none :=
    Source.supplies_ofBytes _
  rcases flags_follow_constants (.ofLists [] [] [] []) .discard () supply with ⟨-, frames⟩
  let r := start (.ofBytes flaggedBytes none []) (.ofLists [] [] [] []) .discard ()
  have reached : (r.trail (Frame.bodies flaggedBytes)).map Prod.fst
      = [flaggedBody, negativeBody] := by decide +kernel
  rcases List.map_eq_cons_iff.1 reached with ⟨first, _, split, before, rest⟩
  rcases List.map_eq_singleton_iff.1 rest with ⟨⟨body, step⟩, rfl, rfl⟩
  have described : descriptionIn? first.1 = some flagged := by
    rw [before]
    rfl
  have announces : Announces ([first].map Prod.fst) negativeBody flagged negative :=
    ⟨rfl, by rw [List.map_singleton, before]; rfl, rfl, by decide, by decide⟩
  rcases frames [first] _ step [] flagged negative "mode" _ _ 0xffffffff split announces rfl rfl with
    ⟨call, here, mem, -, valued, -⟩
  rcases frames [first] _ step [] flagged negative "access" _ _ 0x80000001 split announces rfl
    rfl with ⟨call', here', -, -, -, masked⟩
  rw [here] at here'
  cases here'
  have values : ValueTableInForce "open" "mode"
      ([] ++ .array [.int32 (-1), .string "ANY"] :: [.array [.int32 2]]) ([] ++ first.1 :: []) :=
    .intro described rfl rfl rfl rfl
  have masks : MaskTableInForce "open" "access" [.array [.int64 0x80000000, .string "HIGH"],
      .array [.int32 2, .string "MIDDLE"], .array [.int32 1, .string "LOW"]]
      ([] ++ first.1 :: []) :=
    .intro described rfl rfl rfl rfl
  refine ⟨call, mem, ?_, ?_⟩
  · refine valued _ _ _ _ values rfl ?_
    intro entry mem other
    rw [List.mem_singleton.1 mem]
    nofun
  · have silent : ∀ tables, lastTold? (CallInfo.valueTables? "open") ([first].map Prod.fst)
        = some tables → (tables.get? "access").bind (·.get? 0x80000001) = none := by
      rw [List.map_singleton, before]
      rintro tables ⟨⟩
      rfl
    exact (masked _ masks silent).trans (by decide)

end Receiver

end CallTrace
