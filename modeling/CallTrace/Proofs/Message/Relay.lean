import CallTrace.Proofs.Bson.Parsed
import CallTrace.Proofs.Value.FlagTables

/-!
A message that is passed on. What a document says is written into a new document and read again,
and nothing is different then but in one case: a digest that was sent as nothing is left out of the
new document, and what is left out is read as 0 (`ReplacesDigest`). `relay_iff` says so of all
documents, and of all frames whose message can be written again.
-/

namespace CallTrace

/-! ## Documents that lose their digest -/

/-- Whether a document holds the data of a call with a digest that says nothing. -/
structure ReplacesDigest (d : Document) : Prop where
  data : d.getString? "type" ∉ [some "info", some "buffer", some "debug"]
  digest : d.get? "h" ∈ [some .null, some .undefined]

theorem Value.ofBson_eq_null_iff {raw : Bson} :
    ofBson raw = .null ↔ raw = .null ∨ raw = .undefined := by
  cases raw <;> simp [ofBson]

namespace CallData

variable (d : Document)

theorem uniqhash_ofDocument_iff :
    (ofDocument d).uniqhash = .null ↔ d.get? "h" ∈ [some .null, some .undefined] := by
  have digest : (ofDocument d).uniqhash = ((d.get? "h").map Value.ofBson).getD (.int 0) := rfl
  rw [digest]
  cases d.get? "h" with
  | none => simp
  | some raw => simp [Value.ofBson_eq_null_iff]

/-- Errors are read in pairs. -/
theorem errors_ofDocument :
    (ofDocument d).lastError.isSome = (ofDocument d).ntStatus.isSome := by
  rw [ofDocument, Option.isSome_map, Option.isSome_map]

end CallData

namespace Message

theorem ofDocument_of_data {d : Document}
    (data : d.getString? "type" ∉ [some "info", some "buffer", some "debug"]) :
    ofDocument d = .data (.ofDocument d) := by
  unfold ofDocument
  cases kind : d.getString? "type" with
  | none => rfl
  | some name =>
    rw [kind] at data
    simp only [List.mem_cons, Option.some_inj, List.not_mem_nil, or_false, not_or] at data
    rw [Option.getD_some]
    split
    · exact absurd rfl data.1
    · exact absurd rfl data.2.1
    · exact absurd rfl data.2.2
    · rfl

/-- A document holds data unless it names one of the other kinds. -/
theorem ofDocument_eq_data_iff {d : Document} {call : CallData} :
    ofDocument d = .data call ↔ d.getString? "type" ∉ [some "info", some "buffer", some "debug"] ∧
      CallData.ofDocument d = call := by
  by_cases data : d.getString? "type" ∉ [some "info", some "buffer", some "debug"]
  · rw [ofDocument_of_data data, Message.data.injEq]
    exact ⟨fun same => ⟨data, same⟩, And.right⟩
  · refine ⟨fun isData => ?_, fun both => absurd both.1 data⟩
    simp only [List.mem_cons, List.not_mem_nil, or_false, not_not] at data
    unfold ofDocument at isData
    rcases data with kind | kind | kind
    · rw [kind] at isData
      cases isData
    · rw [kind] at isData
      cases isData
    · rw [kind] at isData
      cases isData

/-- What is read from a document arrives as it is, unless it loses its digest. -/
theorem received_ofDocument_iff (d : Document) :
    (ofDocument d).received = ofDocument d ↔ ¬ReplacesDigest d := by
  rw [received_eq_self_iff]
  constructor
  · rintro arrives ⟨data, digest⟩
    exact (arrives _ (ofDocument_of_data data)).1 ((CallData.uniqhash_ofDocument_iff d).2 digest)
  · intro kept call isData
    rcases ofDocument_eq_data_iff.1 isData with ⟨data, rfl⟩
    exact ⟨fun none => kept ⟨data, (CallData.uniqhash_ofDocument_iff d).1 none⟩,
      CallData.errors_ofDocument d⟩

/-- The digest is all that is lost. -/
theorem received_of_replacesDigest {d : Document} (replaces : ReplacesDigest d) :
    (ofDocument d).received = .data { CallData.ofDocument d with uniqhash := .int 0 } := by
  have none := (CallData.uniqhash_ofDocument_iff d).2 replaces.digest
  have pair := CallData.errors_ofDocument d
  rw [ofDocument_of_data replaces.data, received, Message.data.injEq, CallData.received, none]
  generalize CallData.ofDocument d = call at pair ⊢
  rcases call with ⟨index, tid, time, args, stacktrace, hash, lastError, ntStatus⟩
  cases lastError <;> cases ntStatus
  · rfl
  · cases pair
  · cases pair
  · rfl

/-! ## Frames -/

/-- The names of tables made of fields are names of these fields. -/
theorem exists_field_of_table {ν : Type} {fields : Document} {table : Bson → ν} {entry : String × ν}
    (mem : entry ∈ (SortedMap.ofList (fields.map fun field => (field.1, table field.2))).toList) :
    ∃ field ∈ fields, field.1 = entry.1 := by
  have here := SortedMap.mem_keys_iff.1 (List.mem_map_of_mem mem)
  rw [SortedMap.get?_ofList, lastOf?_isSome_iff] at here
  rcases here with ⟨named, within, some⟩
  rcases List.mem_map.1 within with ⟨field, mem, rfl⟩
  refine ⟨field, mem, ?_⟩
  by_contra other
  rw [if_neg other] at some
  cases some

variable {d : Document}

/-- No table in an ordinary document has a reserved name. -/
theorem unreserved_of_table {ν : Type} (ordinary : (Bson.document d).Ordinarily) (key : String)
    (table : Bson → ν) {entry : String × ν}
    (mem : entry ∈ (SortedMap.ofList (((d.getDocument? key).getD []).map fun field =>
      (field.1, table field.2))).toList) :
    Spelling.ofKey? entry.1 = none := by
  rcases exists_field_of_table mem with ⟨field, within, same⟩
  cases here : d.getDocument? key with
  | none =>
    rw [here] at within
    cases within
  | some fields =>
    rw [here] at within
    have inner := Document.ordinarily_of_getDocument? ordinary here
    rw [← same]
    exact (Bson.ordinarily_document_iff.1 inner).1.2 field within

/-- The message of an ordinary document is ordinary. -/
theorem ordinary_ofDocument (ordinary : (Bson.document d).Ordinarily) :
    (ofDocument d).Ordinary := by
  unfold ofDocument
  split
  · constructor
    · exact fun _ => unreserved_of_table ordinary "flags_value" fun table =>
        SortedMap.ofList (Flags.entriesOfBson table)
    · exact fun _ => unreserved_of_table ordinary "flags_bitmask" Flags.entriesOfBson
  · trivial
  · trivial
  · intro part mem
    rw [CallData.ofDocument] at mem
    cases here : d.getArray? "args" with
    | none =>
      rw [here] at mem
      cases mem
    | some values =>
      rw [here] at mem
      rcases Bson.mem_itemParts_iff.1 mem with ⟨value, within, inner⟩
      have array := Document.ordinarily_of_getArray? ordinary here
      exact Bson.ordinarily_array_iff.1 array value within part inner

/-- A document that is read, written and read again gives the same message, unless it holds the data
of a call with a digest of nothing, which then becomes 0 and is all that changes. The same goes for
frames: one with the message of another is read as that message was. -/
theorem relay_iff (d : Document) :
    (ofDocument (ofDocument d).toDocument = ofDocument d ↔ ¬ReplacesDigest d) ∧
      (ReplacesDigest d → ofDocument (ofDocument d).toDocument
        = .data { CallData.ofDocument d with uniqhash := .int 0 }) ∧
      ∀ body again : Bytes, Document.parseBody? body = some d →
        (ofDocument d).encode? = some again →
        (ofDocument d).toDocument.print.length ≤ 0x7FFFFFFF →
        decode? body = some (ofDocument d) ∧
          decode? again = some (ofDocument (ofDocument d).toDocument) := by
  rw [ofDocument_toDocument]
  refine ⟨received_ofDocument_iff d, received_of_replacesDigest, ?_⟩
  intro body again parsed encoded small
  have ordinary := ordinary_ofDocument (Document.ordinarily_of_parseBody? parsed)
  have plain := ordinary.plain (encode_of_encode? encoded).1
  have length := congrArg List.length (encode_of_encode? encoded).2
  rw [Frame.length_encode] at length
  exact ⟨by rw [decode?, parsed, Option.map_some], decode?_of_encode? encoded plain (by omega)⟩

/-- Data with a digest that says nothing. -/
def unhashed : Document := [("h", .null)]

/-- Data in unusual types: narrow integers, a time without a fraction, errors that say nothing, and
a text where a list of frames should be. -/
def unusual : Document :=
  [("args", .array [.document [("key", .int32 (-1))]]), ("e", .null), ("E", .undefined),
    ("s", .string "none"), ("h", .int32 (-1)), ("I", .int32 3), ("t", .int64 2)]

/-- The body of this document. -/
def unusualBody : Bytes := (unusual.print?.map (·.drop Frame.lengthSize)).getD []

theorem relay_iff_unusual :
    (∃ again, (ofDocument unusual).encode? = some again ∧
      decode? again = decode? unusualBody ∧ decode? unusualBody = some (ofDocument unusual)) ∧
    ofDocument (ofDocument unhashed).toDocument
      = .data { CallData.ofDocument unhashed with uniqhash := .int 0 } := by
  have kept : ¬ReplacesDigest unusual := fun replaces => absurd replaces.digest (by simp [unusual])
  have encoded : (ofDocument unusual).encode?.isSome = true := by decide +kernel
  rcases Option.isSome_iff_exists.1 encoded with ⟨again, written⟩
  rcases relay_iff unusual with ⟨same, -, frames⟩
  rcases frames unusualBody again (by rfl) written (by decide +kernel) with ⟨read, relayed⟩
  refine ⟨⟨again, written, ?_, read⟩, (relay_iff unhashed).2.1 ⟨by decide, List.mem_cons_self⟩⟩
  rw [relayed, same.2 kept, read]

/-- Not everything arrives that is passed on. -/
theorem relay_replaces_unhashed :
    ¬ ∀ d : Document, ofDocument (ofDocument d).toDocument = ofDocument d := by
  intro claim
  have same := claim unhashed
  rw [ofDocument_toDocument, received_ofDocument_iff] at same
  exact same ⟨by decide, List.mem_cons_self⟩

end Message

end CallTrace
