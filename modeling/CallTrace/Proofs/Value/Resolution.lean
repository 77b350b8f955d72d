import CallTrace.Proofs.Value.FlagTables

/-!
Which arguments of a call have symbols, and which symbols these are. `SymbolOf` is the rule: an
argument is the first of its name, the value table of the name decides if it has the number of the
argument, and else the mask table, if there is one. `entries_resolve` says that the symbols of a
call are the ones by this rule and no others, whatever tables and arguments there are.
-/

namespace CallTrace.Flags

variable {values : ValueTables} {masks : MaskTables} {args : NamedValues} {name text : String}
  {bits : UInt64}

/-! ## The rule -/

/-- The first argument of a name has a number. -/
def HasBits (args : NamedValues) (name : String) (bits : UInt64) : Prop :=
  ∃ front value back, args = front ++ (name, value) :: back ∧ (∀ arg ∈ front, arg.1 ≠ name) ∧
    value.flagBits? = some bits

/-- The symbols of those masks of a table all of whose bits are set, one for each entry and in the
order of the table. -/
inductive SetIn (bits : UInt64) : List (UInt64 × String) → List String → Prop
  | none : SetIn bits [] []
  | set {mask : UInt64} {symbol : String} {table : List (UInt64 × String)}
    {symbols : List String} :
    bits &&& mask = mask → SetIn bits table symbols →
    SetIn bits ((mask, symbol) :: table) (symbol :: symbols)
  | unset {mask : UInt64} {symbol : String} {table : List (UInt64 × String)}
    {symbols : List String} :
    bits &&& mask ≠ mask → SetIn bits table symbols →
    SetIn bits ((mask, symbol) :: table) symbols

/-- The symbol of an argument by the tables of its name. -/
inductive SymbolOf (values : ValueTables) (masks : MaskTables) (args : NamedValues)
    (name : String) : String → Prop
  | value {bits : UInt64} {table : SortedMap UInt64 String} {symbol : String} :
    HasBits args name bits → values.get? name = some table → table.get? bits = some symbol →
    SymbolOf values masks args name symbol
  | masks {bits : UInt64} {table : List (UInt64 × String)} {symbols : List String} :
    HasBits args name bits →
    (∀ exact, values.get? name = some exact → exact.get? bits = none) →
    masks.get? name = some table → SetIn bits table symbols →
    SymbolOf values masks args name ("|".intercalate symbols)

/-! ## Arguments and masks -/

theorem argumentBits?_eq_some_iff :
    argumentBits? args name = some bits ↔ HasBits args name bits := by
  rw [argumentBits?, Option.bind_eq_some_iff]
  constructor
  · rintro ⟨value, first, number⟩
    rcases List.lookup_eq_some_iff.1 first with ⟨front, back, split, apart⟩
    refine ⟨front, value, back, split, fun arg mem => ?_, number⟩
    exact Ne.symm (by simpa using apart arg mem)
  · rintro ⟨front, value, back, split, apart, number⟩
    refine ⟨value, List.lookup_eq_some_iff.2 ⟨front, back, split, fun arg mem => ?_⟩, number⟩
    simpa using Ne.symm (apart arg mem)

/-- Every table has its set symbols. -/
theorem setIn_filter (bits : UInt64) (table : List (UInt64 × String)) :
    SetIn bits table ((table.filter fun entry => bits &&& entry.1 == entry.1).map (·.2)) := by
  induction table with
  | nil => exact .none
  | cons entry later ih =>
    rcases entry with ⟨mask, symbol⟩
    by_cases isSet : bits &&& mask = mask
    · rw [List.filter_cons_of_pos (by simpa using isSet), List.map_cons]
      exact .set isSet ih
    · rw [List.filter_cons_of_neg (by simpa using isSet)]
      exact .unset isSet ih

/-- A table has no other set symbols. -/
theorem SetIn.unique {table : List (UInt64 × String)} {symbols others : List String}
    (first : SetIn bits table symbols) (second : SetIn bits table others) : symbols = others := by
  induction first generalizing others with
  | none =>
    cases second
    rfl
  | set isSet _ ih =>
    cases second with
    | set _ later => rw [ih later]
    | unset isUnset _ => exact absurd isSet isUnset
  | unset isUnset _ ih =>
    cases second with
    | set isSet _ => exact absurd isSet isUnset
    | unset _ later => exact ih later

theorem SetIn.mem_iff {table : List (UInt64 × String)} {symbols : List String}
    (found : SetIn bits table symbols) (symbol : String) :
    symbol ∈ symbols ↔ ∃ mask, (mask, symbol) ∈ table ∧ bits &&& mask = mask := by
  rw [found.unique (setIn_filter bits table), List.mem_map]
  constructor
  · rintro ⟨⟨mask, symbol⟩, mem, rfl⟩
    rcases List.mem_filter.1 mem with ⟨mem, isSet⟩
    exact ⟨mask, mem, by simpa using isSet⟩
  · rintro ⟨mask, mem, isSet⟩
    exact ⟨(mask, symbol), List.mem_filter.2 ⟨mem, by simpa using isSet⟩, rfl⟩

theorem maskSymbols_eq_iff {table : List (UInt64 × String)} :
    maskSymbols bits table = text ↔
      ∃ symbols, SetIn bits table symbols ∧ "|".intercalate symbols = text := by
  constructor
  · intro same
    exact ⟨_, setIn_filter bits table, same⟩
  · rintro ⟨symbols, found, same⟩
    rw [maskSymbols, (setIn_filter bits table).unique found, same]

/-! ## The symbols of a call -/

theorem get?_resolve_iff :
    (resolve values masks args).get? name = some text ↔ SymbolOf values masks args name text := by
  rw [get?_resolve, Option.or_eq_some_iff]
  constructor
  · rintro (exact' | ⟨unknown, masked⟩)
    · rcases Option.bind_eq_some_iff.1 exact' with ⟨table, here, known⟩
      rcases Option.bind_eq_some_iff.1 known with ⟨bits, number, symbol⟩
      exact .value (argumentBits?_eq_some_iff.1 number) here symbol
    · rcases Option.bind_eq_some_iff.1 masked with ⟨table, here, known⟩
      rcases Option.map_eq_some_iff.1 known with ⟨bits, number, symbols⟩
      rcases maskSymbols_eq_iff.1 symbols with ⟨symbols, found, rfl⟩
      refine .masks (argumentBits?_eq_some_iff.1 number) (fun exact' table' => ?_) here found
      rwa [table', Option.bind_some, number, Option.bind_some] at unknown
  · intro symbol
    cases symbol with
    | value number here known =>
      refine .inl ?_
      rw [here, Option.bind_some, argumentBits?_eq_some_iff.2 number, Option.bind_some, known]
    | masks number unknown here found =>
      refine .inr ⟨?_, ?_⟩
      · rw [argumentBits?_eq_some_iff.2 number]
        cases table : values.get? name with
        | none => rfl
        | some exact' => exact unknown exact' table
      · rw [here, Option.bind_some, argumentBits?_eq_some_iff.2 number, Option.map_some,
          maskSymbols_eq_iff.2 ⟨_, found, rfl⟩]

/-- An argument has a symbol if its value table has its number, or if there is a mask table. -/
theorem exists_symbolOf_iff :
    (∃ text, SymbolOf values masks args name text) ↔
      ∃ bits, HasBits args name bits ∧
        ((∃ table symbol, values.get? name = some table ∧ table.get? bits = some symbol) ∨
          ∃ table, masks.get? name = some table) := by
  constructor
  · rintro ⟨text, symbol⟩
    cases symbol with
    | @value bits table _ number here known =>
      exact ⟨bits, number, .inl ⟨table, text, here, known⟩⟩
    | @masks bits table _ number _ here _ => exact ⟨bits, number, .inr ⟨table, here⟩⟩
  · rintro ⟨bits, number, ⟨table, symbol, here, known⟩ | ⟨table, here⟩⟩
    · exact ⟨symbol, .value number here known⟩
    · cases exact' : (values.get? name).bind (·.get? bits) with
      | some symbol =>
        rcases Option.bind_eq_some_iff.1 exact' with ⟨table, here, known⟩
        exact ⟨symbol, .value number here known⟩
      | none =>
        refine ⟨_, .masks number (fun table' here' => ?_) here (setIn_filter bits table)⟩
        rwa [here', Option.bind_some] at exact'

/-- The symbols of a call are those that the rule gives to the names of its arguments, one text for
a name. A name has one exactly if its first argument has a number that the value table knows, or
has a number and a mask table: neither an argument without tables has one, nor a name of tables
without an argument. A mask without bits is set in every number, and no set mask is an empty
text. -/
theorem entries_resolve (values : ValueTables) (masks : MaskTables) (args : NamedValues) :
    let entries := (resolve values masks args).toList
    (∀ name text, (name, text) ∈ entries ↔ SymbolOf values masks args name text) ∧
    (∀ name, name ∈ entries.map Prod.fst ↔ ∃ bits, HasBits args name bits ∧
      ((∃ table symbol, values.get? name = some table ∧ table.get? bits = some symbol) ∨
        ∃ table, masks.get? name = some table)) ∧
    (∀ name text other, (name, text) ∈ entries → (name, other) ∈ entries → text = other) ∧
    (∀ name, (∀ arg ∈ args, arg.1 ≠ name) → name ∉ entries.map Prod.fst) ∧
    (∀ name, values.get? name = none → masks.get? name = none → name ∉ entries.map Prod.fst) ∧
    ∀ bits table symbols, SetIn bits table symbols →
      (∀ symbol, (0, symbol) ∈ table → symbol ∈ symbols) ∧
      ((∀ entry ∈ table, bits &&& entry.1 ≠ entry.1) → "|".intercalate symbols = "") := by
  intro entries
  have entry_iff : ∀ name text, (name, text) ∈ entries ↔ SymbolOf values masks args name text := by
    intro name text
    rw [SortedMap.mem_toList_iff_get?, get?_resolve_iff]
  have name_iff : ∀ name, name ∈ entries.map Prod.fst ↔ ∃ bits, HasBits args name bits ∧
      ((∃ table symbol, values.get? name = some table ∧ table.get? bits = some symbol) ∨
        ∃ table, masks.get? name = some table) := by
    intro name
    rw [← exists_symbolOf_iff, List.mem_map]
    constructor
    · rintro ⟨⟨_, text⟩, mem, rfl⟩
      exact ⟨text, (entry_iff _ text).1 mem⟩
    · rintro ⟨text, symbol⟩
      exact ⟨(name, text), (entry_iff name text).2 symbol, rfl⟩
  refine ⟨entry_iff, name_iff, ?_, ?_, ?_, ?_⟩
  · intro name text other first second
    rw [SortedMap.mem_toList_iff_get?] at first second
    exact Option.some.inj (first.symm.trans second)
  · intro name absent mem
    rcases (name_iff name).1 mem with ⟨bits, ⟨front, value, back, rfl, -, -⟩, -⟩
    exact absent (name, value) (by simp) rfl
  · intro name noValues noMasks mem
    rcases (name_iff name).1 mem with ⟨bits, -, ⟨table, symbol, here, -⟩ | ⟨table, here⟩⟩
    · rw [noValues] at here
      cases here
    · rw [noMasks] at here
      cases here
  · intro bits table symbols found
    constructor
    · intro symbol mem
      exact (found.mem_iff symbol).2 ⟨0, mem, UInt64.and_zero⟩
    · intro unset
      have none : symbols = [] := by
        rw [List.eq_nil_iff_forall_not_mem]
        intro symbol mem
        rcases (found.mem_iff symbol).1 mem with ⟨mask, within, isSet⟩
        exact unset (mask, symbol) within isSet
      rw [none]
      rfl

/-- Masks for an argument that is there twice, one of them without bits and one that is not set; an
argument that both tables know, and one that is no number. -/
theorem entries_resolve_repeated :
    let values : ValueTables :=
      .ofList [("Access", .ofList [(8, "EXECUTE")]), ("Share", .ofList [(1, "READ")])]
    let masks : MaskTables :=
      .ofList [("Access", [(2, "WRITE"), (4, "DELETE"), (0, "ANY"), (1, "READ")]),
        ("Share", [(1, "SHARED")]), ("Path", [(0, "ANY")])]
    let args : NamedValues := [("Access", .text "0x3"), ("Access", .int 8), ("Share", .bool true),
      ("Path", .text "rw"), ("Size", .int 8)]
    SymbolOf values masks args "Access" "WRITE|ANY|READ" ∧
      SymbolOf values masks args "Share" "READ" ∧
      (∀ text, ¬SymbolOf values masks args "Path" text) ∧
      "Size" ∉ (resolve values masks args).toList.map Prod.fst ∧
      "Other" ∉ (resolve values masks args).toList.map Prod.fst := by
  intro values masks args
  rcases entries_resolve values masks args with ⟨entry_iff, -, -, absent, untabled, -⟩
  have unnumbered : "Path" ∉ (resolve values masks args).toList.map Prod.fst := by
    decide +kernel
  refine ⟨(entry_iff _ _).1 (by decide +kernel), (entry_iff _ _).1 (by decide +kernel), ?_,
    untabled _ (by decide +kernel) (by decide +kernel), absent _ (by decide +kernel)⟩
  intro text symbol
  exact unnumbered (List.mem_map.2 ⟨_, (entry_iff "Path" text).2 symbol, rfl⟩)

end CallTrace.Flags
