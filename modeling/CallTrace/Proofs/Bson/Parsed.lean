import CallTrace.Proofs.Message.Transit

/-!
What is read is ordinary. No document that was read has a key twice or a reserved key, and the
options of regular expressions are in order, at any depth (`Ordinarily`). So a value that was read
and can be written again is read as itself.

The parser's functions call one another with less fuel, so what is known of all of them with some
fuel (`ReadsOrdinarily`) gives the same with one more.
-/

namespace CallTrace

namespace Bson

/-- Whether a value and all values in it are ordinary. -/
def Ordinarily (value : Bson) : Prop := ∀ part ∈ parts value, part.Ordinary

/-! ## Values and their parts -/

theorem mem_fieldParts_iff {fields : List (String × Bson)} {part : Bson} :
    part ∈ fieldParts fields ↔ ∃ field ∈ fields, part ∈ parts field.2 := by
  induction fields with
  | nil => simp [fieldParts]
  | cons field rest ih => simp [fieldParts, ih]

theorem mem_itemParts_iff {items : List Bson} {part : Bson} :
    part ∈ itemParts items ↔ ∃ item ∈ items, part ∈ parts item := by
  induction items with
  | nil => simp [itemParts]
  | cons item rest ih => simp [itemParts, ih]

theorem ordinarily_array_iff {items : List Bson} :
    (Bson.array items).Ordinarily ↔ ∀ item ∈ items, item.Ordinarily := by
  simp only [Ordinarily, parts, List.forall_mem_cons, mem_itemParts_iff]
  refine ⟨fun all item mem part within => all.2 part ⟨item, mem, within⟩, fun all => ⟨trivial, ?_⟩⟩
  rintro part ⟨item, mem, within⟩
  exact all item mem part within

theorem ordinarily_document_iff {fields : Document} :
    (Bson.document fields).Ordinarily ↔
      (Bson.document fields).Ordinary ∧ ∀ field ∈ fields, field.2.Ordinarily := by
  simp only [Ordinarily, parts, List.forall_mem_cons, mem_fieldParts_iff]
  apply and_congr_right
  intro _
  refine ⟨fun all field mem part within => all part ⟨field, mem, within⟩, ?_⟩
  rintro all part ⟨field, mem, within⟩
  exact all field mem part within

theorem ordinarily_codeWithScope {text : String} {scope : Document}
    (ordinary : (Bson.document scope).Ordinarily) : (Bson.codeWithScope text scope).Ordinarily := by
  unfold Ordinarily at ordinary ⊢
  rw [parts, List.forall_mem_cons]
  rw [parts] at ordinary
  exact ⟨trivial, ordinary⟩

/-- A value without parts. -/
theorem ordinarily_of_parts {value : Bson} (alone : parts value = [value])
    (ordinary : value.Ordinary) : value.Ordinarily := by
  intro part mem
  rw [alone, List.mem_singleton] at mem
  rwa [mem]

theorem ordinarily_empty : (Bson.document []).Ordinarily :=
  ordinarily_of_parts rfl ⟨List.nodup_nil, List.forall_mem_nil _⟩

theorem mem_insert {d : Document} {key : String} {value : Bson} {field : String × Bson}
    (mem : field ∈ d.insert key value) : field = (key, value) ∨ field ∈ d := by
  induction d with
  | nil => exact .inl (List.mem_singleton.1 mem)
  | cons first rest ih =>
    rw [Document.insert] at mem
    split at mem
    · exact (List.mem_cons.1 mem).imp_right (List.mem_cons_of_mem first)
    · rcases List.mem_cons.1 mem with rfl | later
      · exact .inr List.mem_cons_self
      · exact (ih later).imp_right (List.mem_cons_of_mem first)

theorem ordinarily_insert {d : Document} {key : String} {value : Bson}
    (ordinary : (Bson.document d).Ordinarily) (unreserved : Spelling.ofKey? key = none)
    (inner : value.Ordinarily) : (Bson.document (d.insert key value)).Ordinarily := by
  rw [ordinarily_document_iff] at ordinary ⊢
  rcases ordinary with ⟨⟨distinct, plain⟩, all⟩
  refine ⟨⟨Document.nodup_keys_insert distinct key value, fun field mem => ?_⟩, fun field mem => ?_⟩
  · rcases mem_insert mem with rfl | before
    · exact unreserved
    · exact plain field before
  · rcases mem_insert mem with rfl | before
    · exact inner
    · exact all field before

/-! ## What is read -/

theorem pairwise_sortOptions (options : String) :
    (sortOptions options).toList.Pairwise fun a b => a.toNat ≤ b.toNat := by
  rw [sortOptions, String.toList_ofList]
  have sorted := @List.pairwise_mergeSort _ (fun a b : Char => decide (a.toNat ≤ b.toNat))
    (by simp only [decide_eq_true_eq]; omega)
    (by simp only [Bool.or_eq_true, decide_eq_true_eq]; omega) options.toList
  simpa using sorted

/-- A value made of something that was read. -/
theorem ordinarily_of_map {α : Type} {read : Option α} {make : α → Bson × Window} {value : Bson}
    {after : Window} (made : read.map make = some (value, after))
    (ordinary : ∀ a, (make a).1.Ordinarily) : value.Ordinarily := by
  rcases Option.map_eq_some_iff.1 made with ⟨a, -, eq⟩
  have := ordinary a
  rwa [eq] at this

theorem ordinarily_takeBinary {w after : Window} {value : Bson}
    (read : takeBinary? w = some (value, after)) : value.Ordinarily := by
  unfold takeBinary? at read
  rcases Option.bind_eq_some_iff.1 read with ⟨⟨length, w⟩, -, read⟩
  rcases Option.bind_eq_some_iff.1 read with ⟨⟨subtype, w⟩, -, read⟩
  have plain : ∀ octets : Bytes × Window, (Bson.binary subtype octets.1).Ordinarily :=
    fun _ => ordinarily_of_parts rfl trivial
  dsimp only at read
  split at read
  · split at read
    · cases read
    · rcases Option.bind_eq_some_iff.1 read with ⟨⟨inner, w⟩, -, read⟩
      dsimp only at read
      split at read
      · exact ordinarily_of_map read plain
      · cases read
  · exact ordinarily_of_map read plain

theorem ordinarily_takeScalar {type : UInt8} {w after : Window} {value : Bson}
    (read : takeScalar? type w = some (value, after)) : value.Ordinarily := by
  unfold takeScalar? at read
  split at read
  -- One field, or none at all.
  any_goals exact ordinarily_of_map read fun _ => ordinarily_of_parts rfl trivial
  any_goals (cases read <;> exact ordinarily_of_parts rfl trivial)
  · exact ordinarily_takeBinary read
  · split at read
    · cases read
      exact ordinarily_of_parts rfl trivial
    · cases read
      exact ordinarily_of_parts rfl trivial
    · cases read
  · rcases Option.bind_eq_some_iff.1 read with ⟨⟨pattern, w⟩, -, read⟩
    rcases Option.bind_eq_some_iff.1 read with ⟨⟨options, w⟩, -, read⟩
    cases read
    exact ordinarily_of_parts rfl (pairwise_sortOptions options)
  · rcases Option.bind_eq_some_iff.1 read with ⟨⟨space, w⟩, -, read⟩
    rcases Option.bind_eq_some_iff.1 read with ⟨⟨id, w⟩, -, read⟩
    cases read
    exact ordinarily_of_parts rfl trivial
  · rcases Option.bind_eq_some_iff.1 read with ⟨⟨increment, w⟩, -, read⟩
    rcases Option.bind_eq_some_iff.1 read with ⟨⟨time, w⟩, -, read⟩
    cases read
    exact ordinarily_of_parts rfl trivial
  · rcases Option.bind_eq_some_iff.1 read with ⟨⟨low, w⟩, -, read⟩
    rcases Option.bind_eq_some_iff.1 read with ⟨⟨high, w⟩, -, read⟩
    cases read
    exact ordinarily_of_parts rfl trivial

/-- A value that is made of something that was spelled. -/
theorem ordinarily_of_spelled {α : Type} {spelled : Option α} {make : α → Bson} {value : Bson}
    (made : spelled.map make = some value) (ordinary : ∀ a, (make a).Ordinarily) :
    value.Ordinarily := by
  obtain ⟨a, -, eq⟩ := Option.map_eq_some_iff.1 made
  have := ordinary a
  rwa [eq] at this

theorem ordinarily_value {spelling : Spelling} {operand : Spelling.Operand} {value : Bson}
    (spelled : spelling.value? operand = some value) : value.Ordinarily := by
  cases spelling with
  | regex =>
    exact ordinarily_of_spelled spelled fun parts =>
      ordinarily_of_parts rfl (pairwise_sortOptions parts.2)
  | scope => cases spelled
  | undefined | minKey | maxKey =>
    unfold Spelling.value? at spelled
    dsimp only at spelled
    split at spelled
    · cases spelled
      exact ordinarily_of_parts rfl trivial
    · cases spelled
  | _ => exact ordinarily_of_spelled spelled fun _ => ordinarily_of_parts rfl trivial

theorem ordinarily_codeBehindScope {scope : Document} {w : Window} {value : Bson} {rest : Bytes}
    (ordinary : (Bson.document scope).Ordinarily)
    (read : codeBehindScope? scope w = some (value, rest)) : value.Ordinarily := by
  unfold codeBehindScope? at read
  obtain ⟨⟨type, key, w⟩, -, read⟩ := Option.bind_eq_some_iff.1 read
  dsimp only at read
  split at read
  · obtain ⟨⟨text, _⟩, -, read⟩ := Option.bind_eq_some_iff.1 read
    obtain ⟨_, -, eq⟩ := Option.bind_eq_some_iff.1 read
    cases eq
    exact ordinarily_codeWithScope ordinary
  · cases read

/-- What is known of all that is read with some fuel. -/
structure ReadsOrdinarily (fuel : Nat) : Prop where
  value : ∀ {type w value after}, takeValue? fuel type w = some (value, after) → value.Ordinarily
  fields : ∀ {w before value rest}, (Bson.document before).Ordinarily →
    fields? fuel w before = some (value, rest) → value.Ordinarily
  scopedCode : ∀ {text w value rest}, scopedCode? fuel text w = some (value, rest) →
    value.Ordinarily
  items : ∀ {w reversed items rest}, (∀ item ∈ reversed, Ordinarily item) →
    items? fuel w reversed = some (items, rest) → ∀ item ∈ items, item.Ordinarily

namespace ReadsOrdinarily

variable {fuel : Nat} (less : ReadsOrdinarily fuel)

include less

theorem value_succ {type : UInt8} {w after : Window} {value : Bson}
    (read : takeValue? (fuel + 1) type w = some (value, after)) : value.Ordinarily := by
  rw [takeValue?] at read
  split at read
  · split at read
    · cases read
    · split at read
      · cases read
      · next value rest inner =>
        cases read
        exact less.fields ordinarily_empty inner
  · split at read
    · split at read
      · cases read
      · split at read
        · cases read
        · next items rest inner =>
          cases read
          exact ordinarily_array_iff.2 (less.items (List.forall_mem_nil _) inner)
    · split at read
      · split at read
        · cases read
        · split at read
          · next fields rest inner =>
            cases read
            exact ordinarily_codeWithScope (less.fields ordinarily_empty inner)
          · cases read
      · exact ordinarily_takeScalar read

theorem fields_succ {w : Window} {before : Document} {value : Bson} {rest : Bytes}
    (ordinary : (Bson.document before).Ordinarily)
    (read : fields? (fuel + 1) w before = some (value, rest)) : value.Ordinarily := by
  rw [fields?] at read
  split at read
  · obtain ⟨_, -, eq⟩ := Option.map_eq_some_iff.1 read
    cases eq
    exact ordinary
  · split at read
    · cases read
    · split at read
      · next unreserved =>
        split at read
        · cases read
        · next inner after taken =>
          exact less.fields (ordinarily_insert ordinary unreserved (less.value taken)) read
      · split at read
        · cases read
        · exact less.scopedCode read
      · split at read
        · next scope after taken => exact ordinarily_codeBehindScope (less.value taken) read
        · cases read
      · split at read
        · cases read
        · next spelled made =>
          obtain ⟨_, -, eq⟩ := Option.map_eq_some_iff.1 read
          cases eq
          obtain ⟨_, -, spells⟩ := Option.bind_eq_some_iff.1 made
          exact ordinarily_value spells

theorem scopedCode_succ {text : String} {w : Window} {value : Bson} {rest : Bytes}
    (read : scopedCode? (fuel + 1) text w = some (value, rest)) : value.Ordinarily := by
  rw [scopedCode?] at read
  split at read
  · obtain ⟨_, -, eq⟩ := Option.map_eq_some_iff.1 read
    cases eq
    exact ordinarily_of_parts rfl trivial
  · split at read
    · cases read
    · split at read
      · split at read
        · next scope after taken =>
          obtain ⟨_, -, eq⟩ := Option.map_eq_some_iff.1 read
          cases eq
          exact ordinarily_codeWithScope (less.value taken)
        · cases read
      · cases read

theorem items_succ {w : Window} {reversed items : List Bson} {rest : Bytes}
    (ordinary : ∀ item ∈ reversed, item.Ordinarily)
    (read : items? (fuel + 1) w reversed = some (items, rest)) :
    ∀ item ∈ items, item.Ordinarily := by
  rw [items?] at read
  split at read
  · obtain ⟨_, -, eq⟩ := Option.map_eq_some_iff.1 read
    cases eq
    intro item mem
    exact ordinary item (List.mem_reverse.1 mem)
  · split at read
    · cases read
    · split at read
      · cases read
      · next taken => exact less.items (List.forall_mem_cons.2 ⟨less.value taken, ordinary⟩) read

end ReadsOrdinarily

theorem readsOrdinarily (fuel : Nat) : ReadsOrdinarily fuel := by
  induction fuel with
  | zero =>
    refine ⟨?_, ?_, ?_, ?_⟩
    · intro type w value after read
      rw [takeValue?] at read
      cases read
    · intro w before value rest _ read
      rw [fields?] at read
      cases read
    · intro text w value rest read
      rw [scopedCode?] at read
      cases read
    · intro w reversed items rest _ read
      rw [items?] at read
      cases read
  | succ fuel less =>
    exact ⟨less.value_succ, less.fields_succ, less.scopedCode_succ, less.items_succ⟩

end Bson

namespace Document

variable {d fields : Document} {items : List Bson} {key : String} {value : Bson}

theorem ordinarily_of_get? (ordinary : (Bson.document d).Ordinarily)
    (here : d.get? key = some value) : value.Ordinarily := by
  rcases List.lookup_eq_some_iff.1 here with ⟨front, back, rfl, -⟩
  exact (Bson.ordinarily_document_iff.1 ordinary).2 (key, value)
    (List.mem_append_right front List.mem_cons_self)

theorem ordinarily_of_getDocument? (ordinary : (Bson.document d).Ordinarily)
    (here : d.getDocument? key = some fields) : (Bson.document fields).Ordinarily := by
  unfold getDocument? at here
  split at here
  · next inner found =>
    cases here
    exact ordinarily_of_get? ordinary found
  · cases here

theorem ordinarily_of_getArray? (ordinary : (Bson.document d).Ordinarily)
    (here : d.getArray? key = some items) : (Bson.array items).Ordinarily := by
  unfold getArray? at here
  split at here
  · next inner found =>
    cases here
    exact ordinarily_of_get? ordinary found
  · cases here

/-- A document that was read is ordinary, with all values in it. -/
theorem ordinarily_of_parseBody? {body : Bytes} (read : parseBody? body = some d) :
    (Bson.document d).Ordinarily := by
  unfold parseBody? at read
  dsimp only at read
  split at read
  · cases read
  · split at read
    · next fields _ parsed =>
      cases read
      exact (Bson.readsOrdinarily _).fields Bson.ordinarily_empty parsed
    · cases read

end Document

end CallTrace
