import CallTrace.Message.Codec
import CallTrace.Proofs.Bson.RoundTrip

/-!
Messages are read back as they were written, except for two things: a digest of nothing comes back
as 0, and an error without its companion does not come back (`CallData.received`).
`decode?_of_encode?` says so of every message that stands for itself (`Message.Plain`).
-/

namespace CallTrace

/-! ## Values -/

namespace Value

mutual

theorem ofBson_toBson (value : Value) : ofBson value.toBson = value := by
  match value with
  | .null => rfl
  | .bool b => rfl
  | .int n => rfl
  | .float x => rfl
  | .text s => rfl
  | .list items => rw [toBson, ofBson, ofBsons_toBsons items]

theorem ofBsons_toBsons (items : List Value) : ofBsons (toBsons items) = items := by
  match items with
  | [] => rfl
  | item :: later => rw [toBsons, ofBsons, ofBson_toBson item, ofBsons_toBsons later]

end

mutual

theorem convertDefault_toBson (value : Value) : Converter.convertDefault value.toBson = value := by
  match value with
  | .null => rfl
  | .bool b => rfl
  | .int n => rfl
  | .float x => rfl
  | .text s => rfl
  | .list items => rw [toBson, Converter.convertDefault, convertItems_toBsons items]

theorem convertItems_toBsons (items : List Value) :
    Converter.convertItems (toBsons items) = items := by
  match items with
  | [] => rfl
  | item :: later =>
    rw [toBsons, Converter.convertItems, convertDefault_toBson item, convertItems_toBsons later]

end

mutual

theorem readable_toBson (value : Value) : Bson.Readable value.toBson := by
  match value with
  | .null => trivial
  | .bool b => trivial
  | .int n => trivial
  | .float x => trivial
  | .text s => trivial
  | .list items =>
    rw [toBson, Bson.Readable]
    exact itemsReadable_toBsons items

theorem itemsReadable_toBsons (items : List Value) : Bson.ItemsReadable (toBsons items) := by
  match items with
  | [] => trivial
  | item :: later =>
    rw [toBsons, Bson.ItemsReadable]
    exact ⟨readable_toBson item, itemsReadable_toBsons later⟩

end

end Value

/-! ## Fields -/

namespace Document

@[simp] theorem get?_nil (key : String) : get? [] key = none := rfl

@[simp] theorem get?_cons (key other : String) (value : Bson) (later : Document) :
    get? ((other, value) :: later) key = if key = other then some value else get? later key := by
  unfold get?
  by_cases same : key = other
  · rw [if_pos same, same, List.lookup_cons_self]
  · have differs : (key == other) = false := beq_false_of_ne same
    rw [if_neg same, List.lookup_cons, differs]

@[simp] theorem get?_append (front back : Document) (key : String) :
    get? (front ++ back) key = (front.get? key).or (back.get? key) :=
  List.lookup_append

@[simp] theorem get?_ite (c : Prop) [Decidable c] (front back : Document) (key : String) :
    get? (if c then front else back) key = if c then front.get? key else back.get? key := by
  split <;> rfl

end Document

@[simp] theorem get?_optionalField (key other : String) (value : Option Bson) :
    (optionalField other value).get? key = if key = other then value else none := by
  cases value with
  | none => simp [optionalField]
  | some v => simp [optionalField]

/-! ## Descriptions -/

theorem ArgSpec.ofBson_toBson (spec : ArgSpec) : ofBson spec.toBson = spec := by
  obtain ⟨name, tag⟩ := spec
  cases tag <;> rfl

namespace Flags

theorem entriesOfBson_entries (entries : List (UInt64 × String)) :
    entriesOfBson (.array (entries.map entryToBson)) = entries := by
  rw [entriesOfBson]
  induction entries with
  | nil => rfl
  | cons entry later ih =>
    have here : entryOfBson? (entryToBson entry) = some entry := by
      simp [entryToBson, entryOfBson?, Bson.flagConstant?]
    rw [List.map_cons, List.filterMap_cons_some here, ih]

theorem valueTablesOf_document (tables : ValueTables) :
    valueTablesOf (some (valueTablesDocument tables)) = tables := by
  have same : (valueTablesDocument tables).map
      (fun table => (table.1, SortedMap.ofList (entriesOfBson table.2))) = tables.toList := by
    rw [valueTablesDocument, List.map_map]
    refine (List.map_congr_left fun table _ => ?_).trans (List.map_id _)
    change (table.1, SortedMap.ofList (entriesOfBson (.array (table.2.toList.map entryToBson)))) = _
    rw [entriesOfBson_entries, SortedMap.ofList_toList]
    rfl
  rw [valueTablesOf, Option.getD_some, same, SortedMap.ofList_toList]

theorem maskTablesOf_document (tables : MaskTables) :
    maskTablesOf (some (maskTablesDocument tables)) = tables := by
  have same : (maskTablesDocument tables).map
      (fun table => (table.1, entriesOfBson table.2)) = tables.toList := by
    rw [maskTablesDocument, List.map_map]
    refine (List.map_congr_left fun table _ => ?_).trans (List.map_id _)
    change (table.1, entriesOfBson (.array (table.2.map entryToBson))) = _
    rw [entriesOfBson_entries]
    rfl
  rw [maskTablesOf, Option.getD_some, same, SortedMap.ofList_toList]

end Flags

theorem SortedMap.eq_empty_of_isEmpty {κ ν : Type} [Ord κ] {m : SortedMap κ ν}
    (empty : m.isEmpty = true) : m = .empty := by
  apply SortedMap.eq_of_toList_eq
  exact List.isEmpty_iff.1 empty

namespace CallInfo

theorem ofDocument_toDocument (call : CallInfo) : ofDocument call.toDocument = call := by
  obtain ⟨index, name, category, args, values, masks⟩ := call
  have specs : args.map (ArgSpec.ofBson ∘ ArgSpec.toBson) = args :=
    (List.map_congr_left fun spec _ => spec.ofBson_toBson).trans (List.map_id _)
  simp only [ofDocument, toDocument, Document.getString?, Document.getArray?, Document.getDocument?,
    Document.get?_cons, Document.get?_append, Document.get?_ite, Document.get?_nil,
    get?_optionalField, String.reduceEq, ↓reduceIte, List.cons_append, List.nil_append,
    List.append_assoc, List.map_map, Option.bind_some, Option.getD_some, Option.none_or,
    Option.or_none, Option.or_self, ite_self, mk.injEq, true_and]
  refine ⟨rfl, ?_, specs, ?_, ?_⟩
  · cases category <;> rfl
  · by_cases empty : values.isEmpty = true
    · rw [if_pos empty]
      exact (SortedMap.eq_empty_of_isEmpty empty).symm
    · rw [if_neg empty]
      exact Flags.valueTablesOf_document values
  · by_cases empty : masks.isEmpty = true
    · rw [if_pos empty]
      exact (SortedMap.eq_empty_of_isEmpty empty).symm
    · rw [if_neg empty]
      exact Flags.maskTablesOf_document masks

end CallInfo

/-! ## Data -/

namespace CallData

/-- Data as they are read back. -/
def received (data : CallData) : CallData where
  index := data.index
  tid := data.tid
  time := data.time
  args := data.args
  stacktrace := data.stacktrace
  uniqhash :=
    match data.uniqhash with
    | .null => .int 0
    | hash => hash
  lastError := data.ntStatus.bind fun _ => data.lastError
  ntStatus := data.lastError.bind fun _ => data.ntStatus

theorem ofDocument_toDocument (data : CallData) : ofDocument data.toDocument = data.received := by
  obtain ⟨index, tid, time, args, stacktrace, hash, lastError, ntStatus⟩ := data
  have digest : ((presentHash? hash).map Value.ofBson).getD (.int 0)
      = (match hash with
        | .null => .int 0
        | hash => hash) := by
    cases hash with
    | null => rfl
    | _ => exact Value.ofBson_toBson _
  cases stacktrace <;> cases lastError <;> cases ntStatus
  all_goals
    simp [ofDocument, toDocument, received, Document.getArray?, Bson.asInt?, Bson.asFloat?, digest,
      Value.ofBson_toBson, Value.ofBsons_toBsons, Value.ofBsons]

end CallData

namespace Message

/-- A message as it is read back. -/
def received : Message → Message
  | .data call => .data call.received
  | other => other

theorem ofDocument_toDocument (message : Message) :
    ofDocument message.toDocument = message.received := by
  cases message with
  | info call =>
    have kind : call.toDocument.getString? "type" = some "info" := by
      simp [CallInfo.toDocument, Document.getString?]
    rw [toDocument, ofDocument, kind]
    exact congrArg Message.info call.ofDocument_toDocument
  | buffer payload checksum => rfl
  | debug tid time text => rfl
  | data call =>
    have kind : call.toDocument.getString? "type" = none := by
      unfold CallData.toDocument
      cases call.lastError <;> cases call.ntStatus
      all_goals simp [Document.getString?]
    rw [toDocument, ofDocument, kind]
    exact congrArg Message.data call.ofDocument_toDocument

end Message

/-! ## Messages that stand for themselves -/

/-- Whether the parts of a message that others chose are read as themselves. -/
def Message.Plain : Message → Prop
  | .info call =>
    Bson.FieldsReadable (Flags.valueTablesDocument call.valueTables) ∧
      Bson.FieldsReadable (Flags.maskTablesDocument call.maskTables)
  | .data call => Bson.ItemsReadable call.args
  | _ => True

theorem ArgSpec.itemsReadable_toBson (specs : List ArgSpec) :
    Bson.ItemsReadable (specs.map ArgSpec.toBson) := by
  induction specs with
  | nil => trivial
  | cons spec later ih =>
    rw [List.map_cons, Bson.ItemsReadable]
    refine ⟨?_, ih⟩
    unfold ArgSpec.toBson
    cases spec.tag with
    | none => trivial
    | some tag => simp [Bson.Readable, Bson.ItemsReadable]

theorem CallInfo.fieldsReadable_toDocument {call : CallInfo} (plain : Message.Plain (.info call)) :
    Bson.FieldsReadable call.toDocument := by
  obtain ⟨values, masks⟩ := plain
  have specs := ArgSpec.itemsReadable_toBson call.args
  unfold CallInfo.toDocument
  cases call.category <;> split <;> split
  all_goals
    simp [optionalField, Bson.FieldsReadable, Bson.Readable, Bson.zeroFree, Spelling.ofKey?, values,
      masks, specs]

theorem CallData.fieldsReadable_toDocument {call : CallData} (plain : Message.Plain (.data call)) :
    Bson.FieldsReadable call.toDocument := by
  have values : Bson.ItemsReadable call.args := plain
  unfold CallData.toDocument presentHash?
  cases call.lastError <;> cases call.ntStatus <;> split <;> split
  all_goals
    simp [optionalField, Bson.FieldsReadable, Bson.Readable, Bson.zeroFree, Spelling.ofKey?, values,
      Value.readable_toBson, Value.itemsReadable_toBsons]

namespace Message

theorem Plain.fieldsReadable {message : Message} (plain : message.Plain) :
    Bson.FieldsReadable message.toDocument := by
  cases message with
  | info call => exact CallInfo.fieldsReadable_toDocument plain
  | buffer payload checksum =>
    simp [toDocument, Bson.FieldsReadable, Bson.Readable, Bson.zeroFree, Spelling.ofKey?]
  | debug tid time text =>
    simp [toDocument, Bson.FieldsReadable, Bson.Readable, Bson.zeroFree, Spelling.ofKey?]
  | data call => exact CallData.fieldsReadable_toDocument plain

theorem decode?_of_encode? {message : Message} {body : Bytes}
    (encoded : message.encode? = some body) (plain : message.Plain)
    (small : body.length + Frame.lengthSize < 0x80000000) :
    decode? body = some message.received := by
  have size : Frame.lengthSize = 4 := rfl
  unfold encode? Document.print? at encoded
  split at encoded
  · rw [Option.map_some, Option.some.injEq, Document.print_eq, Bson.enclosed, size,
      List.drop_left' (LittleEndian.length_digits ..)] at encoded
    subst encoded
    rw [List.length_append, List.length_singleton] at small
    rw [decode?, Document.parseBody?_fieldsOctets plain.fieldsReadable (by omega), Option.map_some,
      ofDocument_toDocument]
  · cases encoded

end Message

end CallTrace
