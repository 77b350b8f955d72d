import CallTrace.Toml.Lexeme

/-!
TOML texts: values, and lines that give keys their values or open tables. A text is read into the
entries of its root table, or not at all.
-/

namespace CallTrace.Toml

mutual

/-- A value at a depth below the limit. -/
def takeValue? (fuel depth : Nat) (cs : List Char) : Option (Toml × List Char) :=
  match fuel with
  | 0 => none
  | fuel + 1 =>
    match cs with
    | [] => none
    | c :: rest =>
      if c = '"' ∨ c = '\'' then (takeString? cs).map fun (s, rest) => (.string s, rest)
      else if c = '[' then
        if depth < depthLimit then takeItems? fuel (depth + 1) [] rest else none
      else if c = '\x7b' then
        if depth < depthLimit then
          match skipBlanks rest with
          | '\x7d' :: rest => some (.inlineTable [], rest)
          | _ => takeMembers? fuel (depth + 1) [] rest
        else none
      else if c = '+' ∨ c = '-' ∨ c.isDigit then takeNumeric? cs
      else
        match cs with
        | 't' :: 'r' :: 'u' :: 'e' :: rest => some (.boolean true, rest)
        | 'f' :: 'a' :: 'l' :: 's' :: 'e' :: rest => some (.boolean false, rest)
        | _ =>
          match seekSpecial [] cs with
          | .found value rest => some (value, rest)
          | _ => none

/-- The items of an array up to its end, behind those already read, last first. -/
def takeItems? (fuel depth : Nat) (reversed : List Toml) (cs : List Char) :
    Option (Toml × List Char) :=
  match fuel with
  | 0 => none
  | fuel + 1 =>
    match skipTrivia false cs with
    | ']' :: rest => some (.array reversed.reverse, rest)
    | cs =>
      match takeValue? fuel depth cs with
      | none => none
      | some (value, rest) =>
        match skipTrivia false rest with
        | ',' :: rest => takeItems? fuel depth (value :: reversed) rest
        | ']' :: rest => some (.array (value :: reversed).reverse, rest)
        | _ => none

/-- The members of an inline table up to its end, behind those already read. -/
def takeMembers? (fuel depth : Nat) (entries : Entries) (cs : List Char) :
    Option (Toml × List Char) :=
  match fuel with
  | 0 => none
  | fuel + 1 =>
    match takeKey? cs with
    | some ((path, key), '=' :: rest) =>
      match takeValue? fuel depth (skipBlanks rest) with
      | none => none
      | some (value, rest) =>
        match changeAt .dottedKey (define (!path.isEmpty) key value) .header path entries with
        | none => none
        | some entries =>
          match skipBlanks rest with
          | ',' :: rest => takeMembers? fuel depth entries rest
          | '\x7d' :: rest => some (.inlineTable entries, rest)
          | _ => none
    | _ => none

end

/-- A text that is partly read: the root table, and the path of the table opened last. -/
structure Progress where
  root : Entries
  place : List String

/-- Open the table or the element that a header names, behind its brackets. -/
def Progress.openHeader? (p : Progress) (isElement : Bool) (cs : List Char) :
    Option (Progress × List Char) := do
  let ((path, key), rest) ← takeKey? cs
  let rest ← dropChar? ']' rest
  let rest ← if isElement then dropChar? ']' rest else some rest
  let rest ← dropLineRest? rest
  let opened := if isElement then openElement key else openTable key
  let root ← changeAt .headerPath opened .header path p.root
  some (⟨root, path ++ [key]⟩, rest)

/-- Give a key its value, up to the end of the line. -/
def Progress.define? (fuel : Nat) (p : Progress) (cs : List Char) :
    Option (Progress × List Char) := do
  let ((path, key), rest) ← takeKey? cs
  let rest ← dropChar? '=' rest
  let (value, rest) ← takeValue? fuel 0 (skipBlanks rest)
  let rest ← dropLineRest? rest
  let root ← defineAt p.place path key value p.root
  some ({ p with root }, rest)

/-- Read the lines of a text. -/
def Progress.lines? (fuel : Nat) (p : Progress) (cs : List Char) : Option Entries :=
  match fuel with
  | 0 => none
  | fuel + 1 =>
    match skipBlanks cs with
    | [] => some p.root
    | '#' :: rest =>
      match dropLineRest? ('#' :: rest) with
      | none => none
      | some rest => p.lines? fuel rest
    | '[' :: '[' :: rest =>
      match p.openHeader? true rest with
      | none => none
      | some (p, rest) => p.lines? fuel rest
    | '[' :: rest =>
      match p.openHeader? false rest with
      | none => none
      | some (p, rest) => p.lines? fuel rest
    | c :: rest =>
      match dropNewline? (c :: rest) with
      | some rest => p.lines? fuel rest
      | none =>
        match p.define? fuel (c :: rest) with
        | none => none
        | some (p, rest) => p.lines? fuel rest

/-- The characters of a text without a byte order mark in front. -/
def withoutMark : List Char → List Char
  | '\uFEFF' :: rest => rest
  | cs => cs

/-- The entries of the root table of a text. -/
def parse? (s : String) : Option Entries :=
  let cs := withoutMark s.toList
  Progress.lines? (cs.length + 1) ⟨[], []⟩ cs

end CallTrace.Toml
