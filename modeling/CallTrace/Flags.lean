import CallTrace.SortedMap
import CallTrace.Value.Basic

/-!
Symbols for flag arguments. A value table gives one symbol to one number; a bitmask table gives the
symbols of all masks that are set in a number. Where both know an argument, the value table wins.
-/

namespace CallTrace

/-- Symbols of numbers, by argument. -/
abbrev ValueTables := SortedMap String (SortedMap UInt64 String)

/-- Symbols of masks in order, by argument. -/
abbrev MaskTables := SortedMap String (List (UInt64 × String))

namespace Flags

/-- The symbols of the masks all of whose bits are set, in order, joined by bars. -/
def maskSymbols (bits : UInt64) (masks : List (UInt64 × String)) : String :=
  "|".intercalate ((masks.filter fun entry => bits &&& entry.1 == entry.1).map (·.2))

/-- The bits of the first argument of a name. -/
def argumentBits? (args : NamedValues) (name : String) : Option UInt64 :=
  (List.lookup name args).bind Value.flagBits?

/-- The symbols that value tables give to arguments. -/
def valueSymbols (tables : ValueTables) (args : NamedValues) : SortedMap String String :=
  tables.toList.foldl (fun found table =>
    match (argumentBits? args table.1).bind table.2.get? with
    | some symbol => found.insert table.1 symbol
    | none => found) .empty

/-- The symbols of all arguments that a table knows. -/
def resolve (values : ValueTables) (masks : MaskTables) (args : NamedValues) :
    SortedMap String String :=
  masks.toList.foldl (fun found table =>
    if found.contains table.1 then found
    else
      match argumentBits? args table.1 with
      | some bits => found.insert table.1 (maskSymbols bits table.2)
      | none => found) (valueSymbols values args)

end Flags

end CallTrace
