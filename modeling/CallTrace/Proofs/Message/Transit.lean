import CallTrace.Proofs.Frame.Grammar
import CallTrace.Proofs.Message.RoundTrip
import CallTrace.Proofs.Sender.Attempt

/-!
What it takes for a message to arrive as it was sent. A message that can be written at all lacks
little: no document in it has a reserved key, and the options of its regular expressions are in
order (`Message.Ordinary`). `decode?_encode?_of_ordinary` says that such a message is read back as
`received` describes, and that its frame is its document, length included.

`parts` lists a value and all values in it, so that what is asked of each of them can be said of one
of them at a time (`Bson.Ordinary`). That a document has each key once is no restriction on what is
sent, for `insert` leaves no other documents (`nodup_keys_ofFields`).
-/

namespace CallTrace

/-! ## Keys of documents -/

namespace Document

theorem keys_insert (d : Document) (key : String) (value : Bson) :
    (d.insert key value).map Prod.fst
      = if key ∈ d.map Prod.fst then d.map Prod.fst else d.map Prod.fst ++ [key] := by
  induction d with
  | nil => rfl
  | cons field rest ih =>
    rcases field with ⟨key', value'⟩
    rw [insert]
    by_cases here : key' = key
    · subst here
      simp
    · rw [if_neg here, List.map_cons, ih]
      by_cases later : key ∈ rest.map Prod.fst
      · simp [later]
      · simp [later, Ne.symm here]

theorem nodup_keys_insert {d : Document} (distinct : (d.map Prod.fst).Nodup) (key : String)
    (value : Bson) : ((d.insert key value).map Prod.fst).Nodup := by
  rw [keys_insert]
  split
  · exact distinct
  · next absent =>
    refine List.nodup_append.2 ⟨distinct, List.pairwise_singleton .., ?_⟩
    rintro other mem _ last rfl
    exact absent (List.mem_singleton.1 last ▸ mem)

theorem nodup_keys_ofFields (fields : List (String × Bson)) :
    ((ofFields fields).map Prod.fst).Nodup := by
  unfold ofFields
  refine List.foldlRecOn (motive := fun d : Document => (d.map Prod.fst).Nodup) fields _
    List.nodup_nil ?_
  intro d distinct field _
  exact nodup_keys_insert distinct field.1 field.2

end Document

namespace Bson

/-! ## Values within values -/

mutual

/-- A value and all values in it, at any depth. A scope is a document. -/
def parts : Bson → List Bson
  | .document fields => .document fields :: fieldParts fields
  | .array items => .array items :: itemParts items
  | .codeWithScope text scope =>
    .codeWithScope text scope :: .document scope :: fieldParts scope
  | value => [value]

/-- The values of fields and all values in them. -/
def fieldParts : List (String × Bson) → List Bson
  | [] => []
  | (_, value) :: rest => parts value ++ fieldParts rest

/-- Items and all values in them. -/
def itemParts : List Bson → List Bson
  | [] => []
  | item :: rest => parts item ++ itemParts rest

end

/-- Whether a value, its parts apart, is one that is read as itself wherever it can be written. -/
def Ordinary : Bson → Prop
  | .document fields =>
    (fields.map Prod.fst).Nodup ∧ ∀ field ∈ fields, Spelling.ofKey? field.1 = none
  | .regex _ options => options.toList.Pairwise fun a b => a.toNat ≤ b.toNat
  | _ => True

instance : DecidablePred Ordinary
  | .document _ => inferInstanceAs (Decidable (_ ∧ _))
  | .regex .. => inferInstanceAs (Decidable (List.Pairwise ..))
  | .double _ | .string _ | .array _ | .binary .. | .undefined | .objectId _ | .boolean _
  | .dateTime _ | .null | .dbPointer .. | .code _ | .symbol _ | .codeWithScope .. | .int32 _
  | .timestamp .. | .int64 _ | .decimal128 _ | .minKey | .maxKey => .isTrue trivial

theorem sortOptions_of_sorted {options : String}
    (sorted : options.toList.Pairwise fun a b => a.toNat ≤ b.toNat) :
    sortOptions options = options := by
  rw [sortOptions, List.mergeSort_of_pairwise (by simpa using sorted), String.ofList_toList]

mutual

/-- A value that can be written is read as itself if all its parts are ordinary. -/
theorem readable_of_parts (value : Bson) (written : printable value = true)
    (ordinary : ∀ part ∈ parts value, Ordinary part) : Readable value := by
  match value with
  | .document fields =>
    rw [parts, List.forall_mem_cons] at ordinary
    rw [printable] at written
    exact fieldsReadable_of_parts fields written ordinary.1 ordinary.2
  | .array items =>
    rw [parts, List.forall_mem_cons] at ordinary
    rw [printable] at written
    exact itemsReadable_of_parts items written ordinary.2
  | .codeWithScope text scope =>
    rw [parts, List.forall_mem_cons, List.forall_mem_cons] at ordinary
    rw [printable] at written
    exact fieldsReadable_of_parts scope written ordinary.2.1 ordinary.2.2
  | .regex pattern options =>
    rw [printable, Bool.and_eq_true] at written
    exact ⟨written.1, written.2, sortOptions_of_sorted (ordinary _ List.mem_cons_self)⟩
  | .double _ | .string _ | .binary .. | .undefined | .objectId _ | .boolean _ | .dateTime _
  | .null | .dbPointer .. | .code _ | .symbol _ | .int32 _ | .timestamp .. | .int64 _
  | .decimal128 _ | .minKey | .maxKey => trivial

theorem fieldsReadable_of_parts (fields : List (String × Bson))
    (written : fieldsPrintable fields = true) (here : Ordinary (.document fields))
    (ordinary : ∀ part ∈ fieldParts fields, Ordinary part) : FieldsReadable fields := by
  match fields with
  | [] => trivial
  | (key, value) :: rest =>
    rcases here with ⟨distinct, unreserved⟩
    rw [List.map_cons, List.nodup_cons] at distinct
    rw [List.forall_mem_cons] at unreserved
    rw [fieldsPrintable, Bool.and_eq_true, Bool.and_eq_true] at written
    rw [fieldParts, List.forall_mem_append] at ordinary
    exact ⟨written.1, unreserved.1, distinct.1, readable_of_parts value written.2.1 ordinary.1,
      fieldsReadable_of_parts rest written.2.2 ⟨distinct.2, unreserved.2⟩ ordinary.2⟩

theorem itemsReadable_of_parts (items : List Bson) (written : itemsPrintable items = true)
    (ordinary : ∀ part ∈ itemParts items, Ordinary part) : ItemsReadable items := by
  match items with
  | [] => trivial
  | item :: rest =>
    rw [itemsPrintable, Bool.and_eq_true] at written
    rw [itemParts, List.forall_mem_append] at ordinary
    exact ⟨readable_of_parts item written.1 ordinary.1,
      itemsReadable_of_parts rest written.2 ordinary.2⟩

end

theorem printable_of_mem {fields : List (String × Bson)} {key : String} {value : Bson}
    (written : fieldsPrintable fields = true) (mem : (key, value) ∈ fields) :
    printable value = true := by
  induction fields with
  | nil => cases mem
  | cons field rest ih =>
    rw [fieldsPrintable, Bool.and_eq_true, Bool.and_eq_true] at written
    rcases List.mem_cons.1 mem with rfl | later
    · exact written.2.1
    · exact ih written.2.2 later

end Bson

/-! ## Flag tables -/

namespace Flags

theorem itemsReadable_entries (entries : List (UInt64 × String)) :
    Bson.ItemsReadable (entries.map entryToBson) := by
  induction entries with
  | nil => trivial
  | cons entry later ih =>
    rw [List.map_cons, Bson.ItemsReadable]
    exact ⟨⟨trivial, trivial, trivial⟩, ih⟩

/-- Tables are read as themselves if no argument has a reserved name. -/
theorem fieldsReadable_tables {ν : Type} (entries : ν → List (UInt64 × String))
    {tables : List (String × ν)} (sorted : tables.Pairwise fun a b => compare a.1 b.1 = .lt)
    (unreserved : ∀ table ∈ tables, Spelling.ofKey? table.1 = none)
    (written : Bson.fieldsPrintable (tables.map fun table =>
      (table.1, .array ((entries table.2).map entryToBson))) = true) :
    Bson.FieldsReadable (tables.map fun table =>
      (table.1, .array ((entries table.2).map entryToBson))) := by
  induction tables with
  | nil => trivial
  | cons table later ih =>
    rw [List.map_cons, Bson.fieldsPrintable, Bool.and_eq_true, Bool.and_eq_true] at written
    rw [List.forall_mem_cons] at unreserved
    rw [List.pairwise_cons] at sorted
    rw [List.map_cons, Bson.FieldsReadable]
    refine ⟨written.1, unreserved.1, ?_, itemsReadable_entries _,
      ih sorted.2 unreserved.2 written.2.2⟩
    rw [List.map_map]
    intro again
    rcases List.mem_map.1 again with ⟨other, mem, same⟩
    have before := sorted.1 other mem
    rw [Function.comp] at same
    rw [← same] at before
    simp at before

/-- Tables can be written if the document that holds them unless they are empty can be. -/
theorem fieldsPrintable_tables {ν : Type} {tables : SortedMap String ν}
    {entry : String × ν → String × Bson} {d : Document} (key : String)
    (written : Bson.fieldsPrintable d = true)
    (mem : tables.isEmpty = false → (key, .document (tables.toList.map entry)) ∈ d) :
    Bson.fieldsPrintable (tables.toList.map entry) = true := by
  cases empty : tables.isEmpty with
  | true =>
    rw [List.isEmpty_iff.1 empty]
    rfl
  | false =>
    have here := Bson.printable_of_mem written (mem empty)
    rwa [Bson.printable] at here

end Flags

/-! ## Messages -/

namespace Message

/-- Whether no document within a message has a reserved key, or one key twice, and no regular
expression has its options out of order. -/
def Ordinary : Message → Prop
  | .info call =>
    (∀ table ∈ call.valueTables.toList, Spelling.ofKey? table.1 = none) ∧
      ∀ table ∈ call.maskTables.toList, Spelling.ofKey? table.1 = none
  | .data call => ∀ part ∈ Bson.itemParts call.args, part.Ordinary
  | _ => True

theorem Ordinary.plain {message : Message} (ordinary : message.Ordinary)
    (written : Bson.fieldsPrintable message.toDocument = true) : message.Plain := by
  cases message with
  | info call =>
    rcases ordinary with ⟨values, masks⟩
    constructor
    · refine Flags.fieldsReadable_tables _ call.valueTables.sorted values
        (Flags.fieldsPrintable_tables "flags_value" written fun filled => ?_)
      simp [toDocument, CallInfo.toDocument, filled, Flags.valueTablesDocument]
    · refine Flags.fieldsReadable_tables id call.maskTables.sorted masks
        (Flags.fieldsPrintable_tables "flags_bitmask" written fun filled => ?_)
      simp [toDocument, CallInfo.toDocument, filled, Flags.maskTablesDocument]
  | buffer payload checksum => trivial
  | debug tid time text => trivial
  | data call =>
    have values : ("args", .array call.args) ∈ Message.toDocument (.data call) := by
      simp [toDocument, CallData.toDocument]
    have here := Bson.printable_of_mem written values
    rw [Bson.printable] at here
    exact Bson.itemsReadable_of_parts call.args here ordinary

/-- The body of a message is its document without the length, which the frame adds again. -/
theorem encode_of_encode? {message : Message} {body : Bytes}
    (encoded : message.encode? = some body) :
    Bson.fieldsPrintable message.toDocument = true ∧
      Frame.encode body = message.toDocument.print := by
  have size : Frame.lengthSize = 4 := rfl
  unfold encode? Document.print? at encoded
  split at encoded
  · next written =>
    rw [Option.map_some, Option.some.injEq, Document.print_eq, Bson.enclosed, size,
      List.drop_left' (LittleEndian.length_digits ..)] at encoded
    subst encoded
    refine ⟨written, ?_⟩
    rw [Frame.encode, Document.print_eq, Bson.enclosed, List.length_append, List.length_singleton]
    rfl
  · cases encoded

/-- A digest of nothing and an error without its companion are all that does not arrive as it was
sent. -/
theorem received_eq_self_iff (message : Message) :
    message.received = message ↔ ∀ call, message = .data call →
      call.uniqhash ≠ .null ∧ call.lastError.isSome = call.ntStatus.isSome := by
  cases message with
  | info call => exact ⟨nofun, fun _ => rfl⟩
  | buffer payload checksum => exact ⟨nofun, fun _ => rfl⟩
  | debug tid time text => exact ⟨nofun, fun _ => rfl⟩
  | data call =>
    rcases call with ⟨index, tid, time, args, stacktrace, hash, lastError, ntStatus⟩
    cases hash <;> cases lastError <;> cases ntStatus
    all_goals simp [received, CallData.received]

/-- A message that can be written in 31 bits of length is read back as `received` says, which is as
it was sent but for two things, and its frame is its document. -/
theorem decode?_encode?_of_ordinary {message : Message} {body : Bytes}
    (encoded : message.encode? = some body) (ordinary : message.Ordinary)
    (small : message.toDocument.print.length ≤ 0x7FFFFFFF) :
    decode? body = some message.received ∧
      (message.received = message ↔ ∀ call, message = .data call →
        call.uniqhash ≠ .null ∧ call.lastError.isSome = call.ntStatus.isSome) ∧
      (∀ sink : Sink, Frame.write sink body = Frame.send sink message.toDocument.print) ∧
      ∀ sink : Sink, (Frame.write sink body).1 = .ok () →
        (Frame.write sink body).2.accepted.toList
          = sink.accepted.toList ++ message.toDocument.print := by
  rcases encode_of_encode? encoded with ⟨written, whole⟩
  have length := congrArg List.length whole
  rw [Frame.length_encode] at length
  have sent (sink : Sink) :
      Frame.write sink body = Frame.send sink message.toDocument.print := by
    have capacity : LittleEndian.capacity Frame.lengthSize = 0x100000000 := by decide
    rw [Frame.write, if_neg (by omega), whole]
  refine ⟨decode?_of_encode? encoded (ordinary.plain written) (by omega),
    message.received_eq_self_iff, sent, ?_⟩
  intro sink ok
  rw [sent] at ok ⊢
  rcases Frame.send_accepted sink message.toDocument.print with ⟨front, accepted, -, complete⟩
  rw [accepted, complete ok]

/-- Data with a document and a scope, without a digest and with one error of two. -/
def nested : Message := .data {
  index := 3
  tid := 5
  time := .zero
  args := [.array [.document [("$comment", .null), ("key", .int32 (-1))]],
    .codeWithScope "f" [("x", .document [])]]
  stacktrace := [.list [.int 1, .text "s"]]
  uniqhash := .null
  lastError := some (.bool true)
  ntStatus := none }

/-- A description with tables of both kinds. -/
def tabled : Message := .info {
  index := 9
  name := "NtOpen"
  category := none
  args := [.bare "mode", ⟨"handle", some "p"⟩]
  valueTables := .ofList [("mode", .ofList [(0xffffffffffffffff, "ALL"), (0, "NONE")])]
  maskTables := .ofList [("mode", [(2, "B"), (1, "A")])] }

theorem decode?_encode?_of_ordinary_nested :
    (nested.encode?.bind decode? = some (.data {
      index := 3, tid := 5, time := .zero
      args := [.array [.document [("$comment", .null), ("key", .int32 (-1))]],
        .codeWithScope "f" [("x", .document [])]]
      stacktrace := [.list [.int 1, .text "s"]]
      uniqhash := .int 0, lastError := none, ntStatus := none })) ∧
    tabled.encode?.bind decode? = some tabled := by
  have carried (message : Message) (body : Bytes) (encoded : message.encode? = some body)
      (ordinary : message.Ordinary) (small : message.toDocument.print.length ≤ 0x7FFFFFFF) :
      message.encode?.bind decode? = some message.received := by
    rw [encoded]
    exact (decode?_encode?_of_ordinary encoded ordinary small).1
  constructor
  · refine (carried nested _ (Option.some_get (by decide +kernel)).symm ?_
      (by decide +kernel)).trans rfl
    change ∀ part ∈ _, Bson.Ordinary part
    decide +kernel
  · refine carried tabled _ (Option.some_get (by decide +kernel)).symm ⟨?_, ?_⟩
      (by decide +kernel)
    all_goals decide +kernel

end Message

end CallTrace
