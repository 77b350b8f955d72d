import CallTrace.Decimal.Binary64

/-!
Values and tables of the format TOML, and the rules about defining a table twice. A table comes from
its own header, from the path of another header, or from the path of a dotted key; only those from
a header's path may still get a header, and only those from dotted keys may get further dotted keys.
-/

namespace CallTrace

/-- Where a table comes from. -/
inductive Toml.Origin where
  /-- Its own header. -/
  | header
  /-- The path in the header of a table below it. -/
  | headerPath
  /-- The path in front of a dotted key. -/
  | dottedKey
  deriving DecidableEq, Repr

/-- A value, a table, or an array of tables that have headers. -/
inductive Toml where
  | string (s : String)
  | integer (n : Int)
  | float (x : Binary64)
  | boolean (b : Bool)
  /-- A date, a time of day, or both: nothing here depends on which. -/
  | dateTime
  | array (items : List Toml)
  | inlineTable (entries : List (String × Toml))
  | table (origin : Toml.Origin) (entries : List (String × Toml))
  /-- The element opened last, and those before it, the latest first. -/
  | tables (last : List (String × Toml)) (earlier : List (List (String × Toml)))
  deriving Inhabited, Repr

namespace Toml

/-- The entries of a table, in order. -/
abbrev Entries := List (String × Toml)

/-- Give a key another value in its place. -/
def replace (key : String) (value : Toml) (entries : Entries) : Entries :=
  entries.map fun entry => if entry.1 = key then (key, value) else entry

/-- Change the table at the end of a path below a table that comes from `self`. Tables that the
path lacks are made, as coming from `origin`. Dotted keys do not enter a table with a header. -/
def changeAt (origin : Origin) (change : Origin → Entries → Option Entries) (self : Origin) :
    List String → Entries → Option Entries
  | [], entries => change self entries
  | key :: path, entries =>
    match List.lookup key entries with
    | none => do
      let inner ← changeAt origin change origin path []
      some (entries ++ [(key, .table origin inner)])
    | some (.table own inner) =>
      if origin = .dottedKey ∧ own = .header then none
      else do
        let inner ← changeAt origin change own path inner
        some (replace key (.table own inner) entries)
    | some (.tables last earlier) => do
      let last ← changeAt origin change .header path last
      some (replace key (.tables last earlier) entries)
    | some _ => none

/-- Give a key its value. The table must not have the key; and behind a path it must come from
dotted keys, without one it must not. -/
def define (behindPath : Bool) (key : String) (value : Toml) (self : Origin) (entries : Entries) :
    Option Entries :=
  if (self = .dottedKey) ≠ (behindPath = true) then none
  else if (List.lookup key entries).isSome then none
  else some (entries ++ [(key, value)])

/-- Give a dotted key its value in the table at a path of headers. -/
def defineAt (place path : List String) (key : String) (value : Toml) (root : Entries) :
    Option Entries :=
  changeAt .headerPath
    (fun self entries =>
      changeAt .dottedKey (define (!path.isEmpty) key value) self path entries)
    .header place root

/-- Open the table of a header. -/
def openTable (key : String) (_ : Origin) (entries : Entries) : Option Entries :=
  match List.lookup key entries with
  | none => some (entries ++ [(key, .table .header [])])
  | some (.table .headerPath inner) => some (replace key (.table .header inner) entries)
  | some _ => none

/-- Open a further table of an array of tables. -/
def openElement (key : String) (_ : Origin) (entries : Entries) : Option Entries :=
  match List.lookup key entries with
  | none => some (entries ++ [(key, .tables [] [])])
  | some (.tables last earlier) => some (replace key (.tables [] (last :: earlier)) entries)
  | some _ => none

end Toml

end CallTrace
