import CallTrace.Category
import CallTrace.Message.Basic

/-!
What a receiver remembers of descriptions. A descriptor belongs to an index, and the last
description of the index counts. Flag tables belong to a call's name, so all indices of one call
share them, and a description without tables leaves those of its name as they are.
-/

namespace CallTrace

/-- What is known of an index: the call, and the names and conversions of its values. -/
structure CallDescriptor where
  name : String
  category : String
  args : List (String × Converter)
  deriving DecidableEq, Repr

namespace CallDescriptor

/-- What a description says of its index. The table decides a category that it leaves open. -/
def ofInfo (table : CallTable) (info : CallInfo) : CallDescriptor where
  name := info.name
  category := info.category.getD (Category.resolve table info.name []).name
  args := info.args.map fun spec => (spec.name, spec.converter)

/-- Positional values with their names and converted, if there are as many as names. -/
def bind? (d : CallDescriptor) (values : List Bson) : Option NamedValues :=
  if values.length = d.args.length then
    some (List.zipWith (fun arg raw => (arg.1, arg.2.apply raw)) d.args values)
  else none

end CallDescriptor

/-- Descriptors by index, and flag tables by the name of a call. -/
structure Schema where
  descriptors : SortedMap Int64 CallDescriptor
  valueTables : SortedMap String ValueTables
  maskTables : SortedMap String MaskTables

namespace Schema

/-- Nothing is known yet. -/
def empty : Schema := ⟨.empty, .empty, .empty⟩

instance : Inhabited Schema := ⟨empty⟩

/-- Remember a description. -/
def describe (schema : Schema) (table : CallTable) (info : CallInfo) : Schema where
  descriptors := schema.descriptors.insert info.index (.ofInfo table info)
  valueTables :=
    if info.valueTables.isEmpty then schema.valueTables
    else schema.valueTables.insert info.name info.valueTables
  maskTables :=
    if info.maskTables.isEmpty then schema.maskTables
    else schema.maskTables.insert info.name info.maskTables

/-- What is known of an index. -/
def get? (schema : Schema) (index : Int64) : Option CallDescriptor := schema.descriptors.get? index

/-- How many indices have been described. -/
def size (schema : Schema) : Nat := schema.descriptors.size

/-- Whether there are flag tables for a call. -/
def hasFlags (schema : Schema) (name : String) : Bool :=
  schema.valueTables.contains name || schema.maskTables.contains name

/-- The symbols of a call's flag arguments. -/
def resolveFlags (schema : Schema) (name : String) (args : NamedValues) :
    SortedMap String String :=
  Flags.resolve ((schema.valueTables.get? name).getD .empty)
    ((schema.maskTables.get? name).getD .empty) args

end Schema

end CallTrace
