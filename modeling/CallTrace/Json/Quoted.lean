import CallTrace.Text.Numeral

/-!
Reading the parts of a JSON text that a category can be made of: blanks and texts in quotes.
-/

namespace CallTrace.Json

/-- The characters behind blanks. -/
def skipBlanks (cs : List Char) : List Char :=
  cs.dropWhile fun c => c = ' ' || c = '\n' || c = '\t' || c = '\r'

/-- The 16-bit unit that four hexadecimal digits name, and what follows them. -/
def takeUnit? : List Char → Option (Nat × List Char)
  | a :: b :: c :: d :: rest => (Numeral.digits? 16 [a, b, c, d]).map fun n => (n, rest)
  | _ => none

/-- The character of one unit, or of two that make a pair, and what follows. -/
def takeCharacter? (cs : List Char) : Option (Char × List Char) := do
  let (high, rest) ← takeUnit? cs
  if high < 0xD800 ∨ 0xDFFF < high then some (Char.ofNat high, rest)
  else if 0xDC00 ≤ high then none
  else
    match rest with
    | '\\' :: 'u' :: rest =>
      let (low, rest) ← takeUnit? rest
      if 0xDC00 ≤ low ∧ low ≤ 0xDFFF then
        some (Char.ofNat (0x10000 + (high - 0xD800) * 0x400 + (low - 0xDC00)), rest)
      else none
    | _ => none

/-- The character of an escape behind its backslash, and what follows. -/
def takeEscape? : List Char → Option (Char × List Char)
  | '"' :: rest => some ('"', rest)
  | '\\' :: rest => some ('\\', rest)
  | '/' :: rest => some ('/', rest)
  | 'b' :: rest => some ('\x08', rest)
  | 'f' :: rest => some ('\x0c', rest)
  | 'n' :: rest => some ('\n', rest)
  | 'r' :: rest => some ('\r', rest)
  | 't' :: rest => some ('\t', rest)
  | 'u' :: rest => takeCharacter? rest
  | _ => none

/-- The rest of a text in quotes, behind the characters already read, last first. -/
def takeQuotedFrom? (fuel : Nat) (reversed cs : List Char) : Option (String × List Char) :=
  match fuel with
  | 0 => none
  | fuel + 1 =>
    match cs with
    | [] => none
    | '"' :: rest => some (String.ofList reversed.reverse, rest)
    | '\\' :: rest =>
      match takeEscape? rest with
      | some (c, rest) => takeQuotedFrom? fuel (c :: reversed) rest
      | none => none
    | c :: rest => if c.toNat < 0x20 then none else takeQuotedFrom? fuel (c :: reversed) rest

/-- A text in quotes, behind blanks, and what follows it. -/
def takeQuoted? (cs : List Char) : Option (String × List Char) :=
  match skipBlanks cs with
  | '"' :: rest => takeQuotedFrom? (rest.length + 1) [] rest
  | _ => none

end CallTrace.Json
