import CallTrace.Decimal.Layout

/-!
JSON values and their compact text: no blanks, members in order, and the escapes that JSON asks for
and no others. Infinities and what is no number are written as `null`.

`chars` says what the text is. `charsOnto` writes it in front of what is already there, so that a
piece is not copied for each value around it; `charsOnto_eq` says that the two agree.
-/

namespace CallTrace

/-- A JSON value. Members keep their order and may repeat. -/
inductive Json where
  | null
  | bool (b : Bool)
  | int (n : Int)
  | float (x : Binary64)
  | text (s : String)
  | array (items : List Json)
  | object (members : List (String × Json))
  deriving Inhabited, Repr

/-- Floating-point numbers are positional for first digits from the fifth place behind the point to
the sixteenth in front of it, and never look like integers. Of two equally near texts the one with
an even last digit is written. -/
def Layout.json : Layout := ⟨some (-5, 15), true, true, .toEven, "null", "null"⟩

namespace Json

/-- A character within quotes. -/
def escape (c : Char) : List Char :=
  if c = '"' then ['\\', '"']
  else if c = '\\' then ['\\', '\\']
  else if c = '\x08' then ['\\', 'b']
  else if c = '\t' then ['\\', 't']
  else if c = '\n' then ['\\', 'n']
  else if c = '\x0c' then ['\\', 'f']
  else if c = '\r' then ['\\', 'r']
  else if c.toNat < 0x20 then
    ['\\', 'u', '0', '0', Hex.digit (c.toNat / 16), Hex.digit (c.toNat % 16)]
  else [c]

/-- A text in quotes. -/
def quoted (s : String) : List Char := '"' :: (s.toList.flatMap escape ++ ['"'])

/-- A text in quotes, in front of other characters. -/
def quotedOnto (s : String) (rest : List Char) : List Char :=
  '"' :: (s.toList.flatMap escape ++ '"' :: rest)

theorem quotedOnto_eq (s : String) (rest : List Char) :
    quotedOnto s rest = quoted s ++ rest := by
  simp [quotedOnto, quoted]

/-- The characters of an integer. -/
def intChars (n : Int) : List Char :=
  if n < 0 then '-' :: Numeral.decimal n.natAbs else Numeral.decimal n.natAbs

/-- The characters of a floating-point number. -/
def floatChars (x : Binary64) : List Char :=
  match x.shape with
  | .finite .. => (Layout.json.text x).toList
  | _ => ['n', 'u', 'l', 'l']

/-- Pieces with commas between them. -/
def separated : List (List Char) → List Char
  | [] => []
  | [piece] => piece
  | piece :: rest => piece ++ ',' :: separated rest

mutual

/-- The compact characters of a value. -/
def chars : Json → List Char
  | .null => ['n', 'u', 'l', 'l']
  | .bool b => if b then ['t', 'r', 'u', 'e'] else ['f', 'a', 'l', 's', 'e']
  | .int n => intChars n
  | .float x => floatChars x
  | .text s => quoted s
  | .array items => '[' :: (separated (itemsChars items) ++ [']'])
  | .object members => '{' :: (separated (membersChars members) ++ ['}'])

/-- The characters of each item. -/
def itemsChars : List Json → List (List Char)
  | [] => []
  | item :: rest => chars item :: itemsChars rest

/-- The characters of each member. -/
def membersChars : List (String × Json) → List (List Char)
  | [] => []
  | (key, value) :: rest => (quoted key ++ ':' :: chars value) :: membersChars rest

end

mutual

/-- The compact characters of a value, in front of others. -/
def charsOnto : Json → List Char → List Char
  | .null, rest => 'n' :: 'u' :: 'l' :: 'l' :: rest
  | .bool b, rest => (Json.bool b).chars ++ rest
  | .int n, rest => intChars n ++ rest
  | .float x, rest => floatChars x ++ rest
  | .text s, rest => quotedOnto s rest
  | .array items, rest => '[' :: itemsOnto items (']' :: rest)
  | .object members, rest => '{' :: membersOnto members ('}' :: rest)

/-- The characters of items with commas between them, in front of others. -/
def itemsOnto : List Json → List Char → List Char
  | [], rest => rest
  | [item], rest => charsOnto item rest
  | item :: next :: more, rest => charsOnto item (',' :: itemsOnto (next :: more) rest)

/-- The characters of members with commas between them, in front of others. -/
def membersOnto : List (String × Json) → List Char → List Char
  | [], rest => rest
  | [(key, value)], rest => quotedOnto key (':' :: charsOnto value rest)
  | (key, value) :: next :: more, rest =>
    quotedOnto key (':' :: charsOnto value (',' :: membersOnto (next :: more) rest))

end

mutual

theorem charsOnto_eq (j : Json) (rest : List Char) : j.charsOnto rest = j.chars ++ rest := by
  cases j with
  | null => simp [charsOnto, chars]
  | bool b => simp [charsOnto]
  | int n => simp [charsOnto, chars]
  | float x => simp [charsOnto, chars]
  | text s => simp [charsOnto, chars, quotedOnto_eq]
  | array items => simp [charsOnto, chars, itemsOnto_eq items]
  | object members => simp [charsOnto, chars, membersOnto_eq members]

theorem itemsOnto_eq (items : List Json) (rest : List Char) :
    itemsOnto items rest = separated (itemsChars items) ++ rest := by
  match items with
  | [] => simp [itemsOnto, itemsChars, separated]
  | [item] => simp [itemsOnto, itemsChars, separated, charsOnto_eq item]
  | item :: next :: more =>
    have later := itemsOnto_eq (next :: more) rest
    simp only [itemsChars] at later
    simp [itemsOnto, itemsChars, separated, charsOnto_eq item, later]

theorem membersOnto_eq (members : List (String × Json)) (rest : List Char) :
    membersOnto members rest = separated (membersChars members) ++ rest := by
  match members with
  | [] => simp [membersOnto, membersChars, separated]
  | [(key, value)] =>
    simp [membersOnto, membersChars, separated, quotedOnto_eq, charsOnto_eq value]
  | (key, value) :: (key', value') :: more =>
    have later := membersOnto_eq ((key', value') :: more) rest
    simp only [membersChars] at later
    simp [membersOnto, membersChars, separated, quotedOnto_eq, charsOnto_eq value, later]

end

/-- The compact text of a value. -/
def compact (j : Json) : String := String.ofList (j.charsOnto [])

theorem compact_eq (j : Json) : j.compact = String.ofList j.chars := by
  rw [compact, charsOnto_eq, List.append_nil]

end Json

end CallTrace
