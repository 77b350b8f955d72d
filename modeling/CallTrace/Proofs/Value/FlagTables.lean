import CallTrace.Message.Document
import CallTrace.Proofs.Schema.Descriptions

/-!
What flag tables say of an argument. `Flags.get?_resolve` gives the symbol of one argument by its
own tables alone: the value table decides if it has the number of the argument, else the mask table
if there is one. For tables that come from a document, `Flags.get?_ofList_map` says which one an
argument has, and `Flags.get?_entriesOfBson` and `Flags.maskSymbols_entriesOfBson` what the entries
of one of either kind come to.
-/

namespace CallTrace

/-! ## Maps made of lists -/

/-- The value of a key that occurs once is the only one that is said of it. -/
theorem lastOf?_eq_lookup {κ ν : Type} [DecidableEq κ] {es : List (κ × ν)} {k : κ}
    (distinct : (es.map Prod.fst).Nodup) :
    lastOf? (fun e => if e.1 = k then some e.2 else none) es = List.lookup k es := by
  induction es with
  | nil => rfl
  | cons e rest ih =>
    rcases e with ⟨key, value⟩
    rw [List.map_cons, List.nodup_cons] at distinct
    rw [← List.singleton_append, lastOf?_append, lastOf?_singleton, List.singleton_append,
      List.lookup_cons]
    by_cases here : key = k
    · subst here
      have absent : lastOf? (fun e => if e.1 = key then some e.2 else none) rest = none := by
        rw [lastOf?_eq_none_iff]
        intro e mem
        refine if_neg fun same => distinct.1 ?_
        exact List.mem_map.2 ⟨e, mem, same⟩
      rw [absent, if_pos rfl, Option.none_or, beq_self_eq_true]
    · rw [if_neg here, Option.or_none, ih distinct.2, beq_eq_false_iff_ne.2 (Ne.symm here)]

namespace SortedMap

variable {κ ν β : Type} [Ord κ] [Std.TransOrd κ] [Std.LawfulEqOrd κ]

theorem get?_foldl_insert [DecidableEq κ] (entries : List (κ × ν)) (m : SortedMap κ ν) (k : κ) :
    (entries.foldl (fun m e => m.insert e.1 e.2) m).get? k
      = (lastOf? (fun e => if e.1 = k then some e.2 else none) entries).or (m.get? k) := by
  induction entries generalizing m with
  | nil => rfl
  | cons e rest ih =>
    rw [List.foldl_cons, ih, get?_insert_eq_or, ← List.singleton_append, lastOf?_append,
      lastOf?_singleton, Option.or_assoc]

/-- The last entry of a key counts. -/
theorem get?_ofList [DecidableEq κ] (entries : List (κ × ν)) (k : κ) :
    (ofList entries).get? k
      = lastOf? (fun e => if e.1 = k then some e.2 else none) entries := by
  rw [ofList, get?_foldl_insert, get?_empty, Option.or_none]

omit [Std.TransOrd κ] [Std.LawfulEqOrd κ] in
theorem isEmpty_of_get? {m : SortedMap κ ν} {k : κ} {v : ν} (here : m.get? k = some v) :
    m.isEmpty = false := by
  rcases m with ⟨entries, sorted⟩
  cases entries with
  | nil => cases here
  | cons => rfl

omit [Std.TransOrd κ] [Std.LawfulEqOrd κ] in
theorem get?_getD_empty (m : Option (SortedMap κ ν)) (k : κ) :
    (m.getD .empty).get? k = m.bind (·.get? k) := by
  cases m <;> rfl

omit [Std.TransOrd κ] in
/-- A fold over a map that treats each key by itself does with a key what it does with its entry. -/
theorem get?_foldl_toList {step : SortedMap κ β → κ × ν → SortedMap κ β}
    (own : ∀ m m' e, m.get? e.1 = m'.get? e.1 → (step m e).get? e.1 = (step m' e).get? e.1)
    (others : ∀ m e k, k ≠ e.1 → (step m e).get? k = m.get? k)
    (entries : SortedMap κ ν) (m : SortedMap κ β) (k : κ) :
    (entries.toList.foldl step m).get? k
      = match entries.get? k with
        | some v => (step m (k, v)).get? k
        | none => m.get? k := by
  rcases entries with ⟨es, sorted⟩
  change (es.foldl step m).get? k = match lookup? k es with
    | some v => (step m (k, v)).get? k
    | none => m.get? k
  induction es generalizing m with
  | nil => rfl
  | cons e rest ih =>
    rcases e with ⟨key, value⟩
    rw [List.pairwise_cons] at sorted
    rw [List.foldl_cons, ih _ sorted.2, lookup?]
    by_cases here : k = key
    · subst here
      -- All other keys come later.
      have absent : lookup? k rest = none := by
        cases later : lookup? k rest with
        | none => rfl
        | some v => simpa using sorted.1 _ (mem_of_lookup?_eq_some later)
      rw [absent, if_pos Std.ReflOrd.compare_self]
    · have apart : compare k key ≠ .eq := fun eq => here (Std.LawfulEqOrd.eq_of_compare eq)
      have same := others m (key, value) k here
      rw [if_neg apart]
      cases lookup? k rest with
      | none => exact same
      | some v => exact own _ _ (k, v) same

end SortedMap

namespace Flags

/-! ## Symbols of an argument -/

theorem get?_valueSymbols (tables : ValueTables) (args : NamedValues) (name : String) :
    (valueSymbols tables args).get? name
      = (tables.get? name).bind fun table => (argumentBits? args name).bind table.get? := by
  rw [valueSymbols, SortedMap.get?_foldl_toList]
  · cases tables.get? name with
    | none => rfl
    | some table =>
      dsimp only
      rw [Option.bind_some]
      cases (argumentBits? args name).bind table.get? with
      | none => rfl
      | some symbol => exact SortedMap.get?_insert_self ..
  · intro found found' table same
    cases (argumentBits? args table.1).bind table.2.get? with
    | none => exact same
    | some symbol => rw [SortedMap.get?_insert_self, SortedMap.get?_insert_self]
  · intro found table other apart
    cases (argumentBits? args table.1).bind table.2.get? with
    | none => rfl
    | some symbol => exact SortedMap.get?_insert_of_ne _ apart _

/-- The symbol of an argument is that of its number in its value table, or else those of its masks
in its mask table. -/
theorem get?_resolve (values : ValueTables) (masks : MaskTables) (args : NamedValues)
    (name : String) :
    (resolve values masks args).get? name
      = ((values.get? name).bind fun table => (argumentBits? args name).bind table.get?).or
          ((masks.get? name).bind fun table =>
            (argumentBits? args name).map (maskSymbols · table)) := by
  rw [resolve, SortedMap.get?_foldl_toList, get?_valueSymbols]
  · generalize exact : ((values.get? name).bind fun table =>
      (argumentBits? args name).bind table.get?) = symbol
    have found : (valueSymbols values args).get? name = symbol := by
      rw [get?_valueSymbols, exact]
    cases masks.get? name with
    | none => rw [Option.bind_none, Option.or_none]
    | some table =>
      dsimp only
      rw [SortedMap.contains, found, Option.bind_some]
      cases symbol with
      | some symbol => exact found
      | none =>
        cases argumentBits? args name with
        | none => exact found
        | some bits => exact SortedMap.get?_insert_self ..
  · intro found found' table same
    rw [SortedMap.contains, SortedMap.contains, same]
    split
    · exact same
    · cases argumentBits? args table.1 with
      | none => exact same
      | some bits => rw [SortedMap.get?_insert_self, SortedMap.get?_insert_self]
  · intro found table other apart
    split
    · rfl
    · cases argumentBits? args table.1 with
      | none => rfl
      | some bits => exact SortedMap.get?_insert_of_ne _ apart _

/-! ## Tables in documents -/

/-- The symbols of the masks among some entries all of whose bits are set, in the order of the
entries. -/
def setSymbols (bits : UInt64) (entries : List Bson) : List String :=
  entries.filterMap fun entry =>
    (entryOfBson? entry).bind fun known =>
      if bits &&& known.1 = known.1 then some known.2 else none

theorem maskSymbols_entriesOfBson (bits : UInt64) (entries : List Bson) :
    maskSymbols bits (entriesOfBson (.array entries))
      = "|".intercalate (setSymbols bits entries) := by
  rw [maskSymbols, entriesOfBson, setSymbols, List.filter_filterMap, List.map_filterMap]
  congr 2
  funext entry
  cases entryOfBson? entry with
  | none => rfl
  | some known =>
    by_cases set : bits &&& known.1 = known.1 <;> simp [Option.filter, set]

/-- The last entry of a number gives it its symbol. -/
theorem get?_entriesOfBson {front back : List Bson} {constant : Bson} {bits : UInt64}
    {symbol : String} (number : constant.flagConstant? = some bits)
    (last : ∀ entry ∈ back, ∀ other, entryOfBson? entry ≠ some (bits, other)) :
    (SortedMap.ofList (entriesOfBson (.array
      (front ++ .array [constant, .string symbol] :: back)))).get? bits = some symbol := by
  have silent : lastOf? (fun e : UInt64 × String => if e.1 = bits then some e.2 else none)
      (back.filterMap entryOfBson?) = none := by
    rw [lastOf?_eq_none_iff]
    rintro ⟨key, other⟩ mem
    rcases List.mem_filterMap.1 mem with ⟨entry, within, known⟩
    refine if_neg fun same => last entry within other ?_
    rw [known]
    exact congrArg (fun key => some (key, other)) same
  have here : entryOfBson? (.array [constant, .string symbol]) = some (bits, symbol) := by
    rw [entryOfBson?, number]
    rfl
  rw [SortedMap.get?_ofList, entriesOfBson, List.filterMap_append, List.filterMap_cons_some here,
    ← List.singleton_append, lastOf?_append, lastOf?_append, lastOf?_singleton, silent,
    if_pos rfl]
  rfl

/-- Tables made of the fields of a document, of which each has its own name. -/
theorem get?_ofList_map {ν : Type} {fields : Document} (distinct : (fields.map Prod.fst).Nodup)
    (table : Bson → ν) (name : String) :
    (SortedMap.ofList (fields.map fun field => (field.1, table field.2))).get? name
      = (fields.get? name).map table := by
  rw [Document.get?, ← lastOf?_eq_lookup distinct, SortedMap.get?_ofList, lastOf?, lastOf?,
    List.filterMap_map, ← List.getLast?_map, List.map_filterMap]
  congr 2
  funext field
  by_cases here : field.1 = name <;> simp [here]

end Flags

end CallTrace
