import CallTrace.Schema
import Mathlib.Data.List.Dedup

/-!
What descriptions leave in a schema. Each thing that a description may tell has a key of its own:
the descriptor belongs to an index, the value tables and the mask tables belong to the name of a
call. `lastOf?` finds what was said last, and `get_describeAll` says once for all three that this is
what the schema holds.

`last_description_counts` puts together what follows for the look-ups, for the number of indices and
for flags.
-/

namespace CallTrace

/-! ## What was said last -/

section

variable {α β : Type}

/-- What the last element says that says something. -/
def lastOf? (said : α → Option β) (xs : List α) : Option β := (xs.filterMap said).getLast?

theorem lastOf?_append (said : α → Option β) (front back : List α) :
    lastOf? said (front ++ back) = (lastOf? said back).or (lastOf? said front) := by
  rw [lastOf?, List.filterMap_append, List.getLast?_append]
  rfl

theorem lastOf?_singleton (said : α → Option β) (x : α) : lastOf? said [x] = said x := by
  rw [lastOf?]
  cases here : said x with
  | none => rw [List.filterMap_cons_none here]; rfl
  | some b => rw [List.filterMap_cons_some here]; rfl

theorem lastOf?_eq_none_iff {said : α → Option β} {xs : List α} :
    lastOf? said xs = none ↔ ∀ x ∈ xs, said x = none := by
  rw [lastOf?, List.getLast?_eq_none_iff, List.filterMap_eq_nil_iff]

/-- Something was said last if anything was said. -/
theorem lastOf?_isSome_iff {said : α → Option β} {xs : List α} :
    (lastOf? said xs).isSome = true ↔ ∃ x ∈ xs, (said x).isSome = true := by
  rw [Option.isSome_iff_ne_none, Ne, lastOf?_eq_none_iff]
  push Not
  simp only [Option.isSome_iff_ne_none]

end

/-! ## What a description says -/

namespace CallInfo

/-- The descriptor that a description gives an index. -/
def descriptor? (table : CallTable) (index : Int64) (info : CallInfo) : Option CallDescriptor :=
  if info.index = index then some (.ofInfo table info) else none

/-- The value tables that a description gives the calls of a name. -/
def valueTables? (name : String) (info : CallInfo) : Option ValueTables :=
  if info.name = name ∧ info.valueTables.isEmpty = false then some info.valueTables else none

/-- The mask tables that a description gives the calls of a name. -/
def maskTables? (name : String) (info : CallInfo) : Option MaskTables :=
  if info.name = name ∧ info.maskTables.isEmpty = false then some info.maskTables else none

variable {name : String} {info : CallInfo}

theorem isSome_valueTables?_iff :
    (info.valueTables? name).isSome = true
      ↔ info.name = name ∧ info.valueTables.isEmpty = false := by
  rw [valueTables?, Option.isSome_ite]

theorem isSome_maskTables?_iff :
    (info.maskTables? name).isSome = true
      ↔ info.name = name ∧ info.maskTables.isEmpty = false := by
  rw [maskTables?, Option.isSome_ite]

/-- A description of another name or without value tables says nothing of them. -/
theorem valueTables?_eq_none (silent : info.name ≠ name ∨ info.valueTables.isEmpty = true) :
    info.valueTables? name = none := by
  rw [← Option.not_isSome_iff_eq_none, isSome_valueTables?_iff, not_and_or, Bool.not_eq_false]
  exact silent

/-- A description of another name or without mask tables says nothing of them. -/
theorem maskTables?_eq_none (silent : info.name ≠ name ∨ info.maskTables.isEmpty = true) :
    info.maskTables? name = none := by
  rw [← Option.not_isSome_iff_eq_none, isSome_maskTables?_iff, not_and_or, Bool.not_eq_false]
  exact silent

end CallInfo

namespace Schema

variable (schema : Schema) (table : CallTable) (info : CallInfo)

theorem get?_describe (index : Int64) :
    (schema.describe table info).get? index
      = (info.descriptor? table index).or (schema.get? index) :=
  SortedMap.get?_insert_eq_or ..

theorem valueTables_describe (name : String) :
    (schema.describe table info).valueTables.get? name
      = (info.valueTables? name).or (schema.valueTables.get? name) := by
  unfold describe CallInfo.valueTables?
  cases none : info.valueTables.isEmpty with
  | true => simp
  | false => simpa using SortedMap.get?_insert_eq_or ..

theorem maskTables_describe (name : String) :
    (schema.describe table info).maskTables.get? name
      = (info.maskTables? name).or (schema.maskTables.get? name) := by
  unfold describe CallInfo.maskTables?
  cases none : info.maskTables.isEmpty with
  | true => simp
  | false => simpa using SortedMap.get?_insert_eq_or ..

/-! ## Many descriptions -/

/-- Remember descriptions one after another, each with the table that decides its category. -/
def describeAll (schema : Schema) (calls : List (CallTable × CallInfo)) : Schema :=
  calls.foldl (fun schema call => schema.describe call.1 call.2) schema

variable {schema} {calls : List (CallTable × CallInfo)}

theorem describeAll_cons (call : CallTable × CallInfo) :
    schema.describeAll (call :: calls) = (schema.describe call.1 call.2).describeAll calls := rfl

/-- What a schema holds of a thing is what the descriptions said of it last. -/
theorem get_describeAll {α : Type} (get : Schema → Option α)
    (told : CallTable × CallInfo → Option α)
    (describes : ∀ (schema : Schema), ∀ call ∈ calls,
      get (schema.describe call.1 call.2) = (told call).or (get schema)) :
    get (schema.describeAll calls) = (lastOf? told calls).or (get schema) := by
  induction calls generalizing schema with
  | nil => rfl
  | cons call later ih =>
    have rest := @ih (schema.describe call.1 call.2) fun schema call mem =>
      describes schema call (List.mem_cons_of_mem _ mem)
    rw [describeAll_cons, rest, describes schema call List.mem_cons_self,
      ← List.singleton_append, lastOf?_append, lastOf?_singleton, Option.or_assoc]

end Schema

namespace SortedMap

variable {κ ν : Type} [Ord κ] [Std.TransOrd κ] [Std.LawfulEqOrd κ]

omit [Std.TransOrd κ] in
theorem mem_keys_iff {m : SortedMap κ ν} {k : κ} :
    k ∈ m.toList.map Prod.fst ↔ (m.get? k).isSome = true := by
  rw [List.mem_map, Option.isSome_iff_exists]
  constructor
  · rintro ⟨⟨_, v⟩, mem, rfl⟩
    exact ⟨v, (m.mem_toList_iff_get? ..).1 mem⟩
  · rintro ⟨v, here⟩
    exact ⟨(k, v), (m.mem_toList_iff_get? ..).2 here, rfl⟩

omit [Std.LawfulEqOrd κ] in
theorem nodup_keys (m : SortedMap κ ν) : (m.toList.map Prod.fst).Nodup := by
  rw [List.Nodup, List.pairwise_map]
  refine m.sorted.imp ?_
  intro a b before same
  rw [same] at before
  simp at before

/-- A map has as many entries as there are different keys. -/
theorem size_eq_length_dedup [DecidableEq κ] {m : SortedMap κ ν} {keys : List κ}
    (all : ∀ k, (m.get? k).isSome = true ↔ k ∈ keys) : m.size = keys.dedup.length := by
  have same : (m.toList.map Prod.fst).Perm keys.dedup := by
    rw [List.perm_ext_iff_of_nodup m.nodup_keys keys.nodup_dedup]
    intro k
    rw [mem_keys_iff, all, List.mem_dedup]
  rw [size, ← same.length_eq, List.length_map]

end SortedMap

namespace Schema

/-! ## A fresh schema -/

section

variable (calls : List (CallTable × CallInfo))

theorem get?_describeAll (index : Int64) :
    (empty.describeAll calls).get? index
      = lastOf? (fun call => call.2.descriptor? call.1 index) calls := by
  rw [get_describeAll (·.get? index) (fun call => call.2.descriptor? call.1 index)
    (fun schema call _ => schema.get?_describe call.1 call.2 index)]
  exact Option.or_none

theorem valueTables_describeAll (name : String) :
    (empty.describeAll calls).valueTables.get? name
      = lastOf? (fun call => call.2.valueTables? name) calls := by
  rw [get_describeAll (·.valueTables.get? name) (fun call => call.2.valueTables? name)
    (fun schema call _ => schema.valueTables_describe call.1 call.2 name)]
  exact Option.or_none

theorem maskTables_describeAll (name : String) :
    (empty.describeAll calls).maskTables.get? name
      = lastOf? (fun call => call.2.maskTables? name) calls := by
  rw [get_describeAll (·.maskTables.get? name) (fun call => call.2.maskTables? name)
    (fun schema call _ => schema.maskTables_describe call.1 call.2 name)]
  exact Option.or_none

/-- Every index that was described counts once. -/
theorem size_describeAll :
    (empty.describeAll calls).size = (calls.map (·.2.index)).dedup.length := by
  apply SortedMap.size_eq_length_dedup
  intro index
  change ((empty.describeAll calls).get? index).isSome = true ↔ _
  rw [get?_describeAll, lastOf?_isSome_iff, List.mem_map]
  refine exists_congr fun call => and_congr_right fun _ => ?_
  unfold CallInfo.descriptor?
  split
  · next here => exact ⟨fun _ => here, fun _ => rfl⟩
  · next other => exact ⟨nofun, fun here => absurd here other⟩

end

theorem hasFlags_iff {schema : Schema} {name : String} :
    schema.hasFlags name = true ↔ (schema.valueTables.get? name).isSome = true ∨
      (schema.maskTables.get? name).isSome = true := by
  rw [hasFlags, Bool.or_eq_true]
  rfl

/-- There are no flags for a call without tables. -/
theorem resolveFlags_of_not_hasFlags {schema : Schema} {name : String}
    (bare : schema.hasFlags name = false) (args : NamedValues) :
    schema.resolveFlags name args = .empty := by
  have neither := mt hasFlags_iff.2 (Bool.eq_false_iff.1 bare)
  rw [not_or, Option.not_isSome_iff_eq_none, Option.not_isSome_iff_eq_none] at neither
  rw [resolveFlags, neither.1, neither.2]
  rfl

/-- The last description of an index counts for its descriptor, and the last description of a name
that has tables of a kind counts for its tables of that kind. -/
theorem last_description_counts (calls : List (CallTable × CallInfo)) :
    let schema := empty.describeAll calls
    let values (name : String) := lastOf? (fun call => call.2.valueTables? name) calls
    let masks (name : String) := lastOf? (fun call => call.2.maskTables? name) calls
    (∀ index, schema.get? index = lastOf? (fun call => call.2.descriptor? call.1 index) calls) ∧
      schema.size = (calls.map (·.2.index)).dedup.length ∧
      (∀ name, schema.valueTables.get? name = values name ∧
        schema.maskTables.get? name = masks name) ∧
      (∀ name args, schema.resolveFlags name args
        = Flags.resolve ((values name).getD .empty) ((masks name).getD .empty) args) ∧
      (∀ table info name,
        (info.name ≠ name ∨ info.valueTables.isEmpty = true →
          (schema.describe table info).valueTables.get? name = schema.valueTables.get? name) ∧
        (info.name ≠ name ∨ info.maskTables.isEmpty = true →
          (schema.describe table info).maskTables.get? name = schema.maskTables.get? name)) ∧
      (∀ name, schema.hasFlags name = true ↔ ∃ call ∈ calls, call.2.name = name ∧
        (call.2.valueTables.isEmpty = false ∨ call.2.maskTables.isEmpty = false)) ∧
      ∀ name args, (if schema.hasFlags name then schema.resolveFlags name args else .empty)
        = schema.resolveFlags name args := by
  intro schema values masks
  have valueTables : ∀ name, schema.valueTables.get? name = values name :=
    valueTables_describeAll calls
  have maskTables : ∀ name, schema.maskTables.get? name = masks name :=
    maskTables_describeAll calls
  refine ⟨get?_describeAll calls, size_describeAll calls,
    fun name => ⟨valueTables name, maskTables name⟩, ?_, ?_, ?_, ?_⟩
  · intro name args
    rw [resolveFlags, valueTables, maskTables]
  · intro table info name
    rw [valueTables_describe, maskTables_describe]
    constructor
    · intro silent
      rw [CallInfo.valueTables?_eq_none silent, Option.none_or]
    · intro silent
      rw [CallInfo.maskTables?_eq_none silent, Option.none_or]
  · intro name
    rw [hasFlags_iff, valueTables, maskTables, lastOf?_isSome_iff, lastOf?_isSome_iff,
      ← exists_or]
    refine exists_congr fun call => ?_
    rw [← and_or_left, CallInfo.isSome_valueTables?_iff, CallInfo.isSome_maskTables?_iff,
      ← and_or_left]
  · intro name args
    cases bare : schema.hasFlags name with
    | true => rfl
    | false => rw [resolveFlags_of_not_hasFlags bare]; rfl

/-- A call with a symbol for the number two in its mode, the same call under another index without
tables, and another call under the first index. -/
def reopened : List (CallTable × CallInfo) :=
  [(.ofLists [] [] [] [], ⟨5, "open", none, [.bare "mode"],
      .ofList [("mode", .ofList [(2, "O_RDWR")])], .empty⟩),
    (.ofLists [] [] [] [], ⟨6, "open", none, [.bare "mode"], .empty, .empty⟩),
    (.ofLists [] [] [] [], ⟨5, "close", some "file", [.bare "fd"], .empty, .empty⟩)]

theorem last_description_counts_reopened :
    let schema := empty.describeAll reopened
    schema.get? 5 = some ⟨"close", "file", [("fd", .default)]⟩ ∧ schema.size = 2 ∧
      (schema.resolveFlags "open" [("mode", .int 2)]).toList = [("mode", "O_RDWR")] ∧
      schema.hasFlags "open" = true ∧
      ∀ values, (schema.describe (.ofLists [] [] [] [])
          ⟨6, "close", none, [], values, .empty⟩).valueTables.get? "open"
        = schema.valueTables.get? "open" := by
  intro schema
  rcases last_description_counts reopened with
    ⟨descriptors, indices, -, resolved, unchanged, flagged, -⟩
  refine ⟨(descriptors 5).trans rfl, indices, ?_, ?_, ?_⟩
  · rw [resolved]
    decide +kernel
  · exact (flagged "open").2 ⟨_, List.mem_cons_self, rfl, .inl rfl⟩
  · intro values
    exact (unchanged _ _ "open").1 (.inl (show "close" ≠ "open" by decide))

end Schema

end CallTrace
