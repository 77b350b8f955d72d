import CallTrace.CallTable
import CallTrace.Json.Quoted
import CallTrace.Value.Basic

/-!
Coarse categories of calls. The table decides, in a fixed order of its lists; a call in none of them
is taken to concern files if one of its arguments mentions a file name.
-/

namespace CallTrace

/-- The category of a call. -/
inductive Category where
  | network
  | filesystem
  | process
  | unknown
  deriving DecidableEq, Repr

namespace Category

/-- The word for a category. -/
def name : Category → String
  | .network => "network"
  | .filesystem => "filesystem"
  | .process => "process"
  | .unknown => "unknown"

/-- The category of a word. -/
def ofName? (word : String) : Option Category :=
  if word = "network" then some .network
  else if word = "filesystem" then some .filesystem
  else if word = "process" then some .process
  else if word = "unknown" then some .unknown
  else none

theorem ofName?_name (c : Category) : ofName? c.name = some c := by cases c <;> rfl

/-- The category that a JSON text names: as a text, or as the key of an object whose only value is
`null`. -/
def ofJson? (json : String) : Option Category := do
  let cs := Json.skipBlanks json.toList
  let isObject := cs.head? = some '\x7b'
  let (word, rest) ← Json.takeQuoted? (if isObject then cs.drop 1 else cs)
  let rest ← if isObject then dropNullMember? rest else some rest
  if (Json.skipBlanks rest).isEmpty then ofName? word else none
where
  /-- The characters behind a colon, `null`, and the end of the object. -/
  dropNullMember? (cs : List Char) : Option (List Char) :=
    match Json.skipBlanks cs with
    | ':' :: rest =>
      match Json.skipBlanks rest with
      | 'n' :: 'u' :: 'l' :: 'l' :: rest =>
        match Json.skipBlanks rest with
        | '\x7d' :: rest => some rest
        | _ => none
      | _ => none
    | _ => none

/-- Whether one list occurs in another without gaps. -/
def occursIn (word : List Char) : List Char → Bool
  | [] => word.isEmpty
  | c :: rest => word.isPrefixOf (c :: rest) || occursIn word rest

/-- The word that marks a call on files. -/
def fileMark : List Char := "filename".toList

/-- Whether a name or a text among the arguments mentions a file name. -/
def mentionsFile (args : NamedValues) : Bool :=
  args.any fun arg =>
    occursIn fileMark arg.1.toList ||
      (arg.2.asText?.any fun s => occursIn fileMark s.toList)

/-- The category of a call that is seen for the first time. -/
def resolve (table : CallTable) (name : String) (args : NamedValues) : Category :=
  if table.isNetwork name then .network
  else if table.isFilesystem name then .filesystem
  else if table.isProcess name then .process
  else if mentionsFile args then .filesystem
  else .unknown

end Category

end CallTrace
