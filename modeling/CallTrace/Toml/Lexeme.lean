import CallTrace.Calendar.Date
import CallTrace.Decimal.Reading
import CallTrace.Toml.Basic

/-!
The smallest parts of a TOML text: blanks, comments, ends of lines, strings of the four kinds, keys,
and numbers and dates. Each function takes its part from the front of the characters and returns
what follows.
-/

namespace CallTrace.Toml

/-- Blanks within a line. -/
def isLineBlank (c : Char) : Bool := c = ' ' || c = '\t'

/-- The characters behind blanks. -/
def skipBlanks (cs : List Char) : List Char := cs.dropWhile isLineBlank

/-- Whether a character may stand for itself in comments and within quotes: a tab may, and no
other control character of ASCII. -/
def isPlain (c : Char) : Bool := c = '\t' || (0x20 ≤ c.toNat && c.toNat ≠ 0x7F)

/-- The characters behind a comment, if there is one. -/
def skipComment : List Char → List Char
  | '#' :: rest => rest.dropWhile isPlain
  | cs => cs

/-- The characters behind the end of a line. -/
def dropNewline? : List Char → Option (List Char)
  | '\n' :: rest => some rest
  | '\r' :: '\n' :: rest => some rest
  | _ => none

/-- The characters behind the rest of a line, which may hold blanks and a comment. -/
def dropLineRest? (cs : List Char) : Option (List Char) :=
  match skipComment (skipBlanks cs) with
  | [] => some []
  | cs => dropNewline? cs

/-- The characters behind blanks, comments and ends of lines. -/
def skipTrivia (inComment : Bool) : List Char → List Char
  | [] => []
  | '\n' :: rest => skipTrivia false rest
  | '\r' :: '\n' :: rest => skipTrivia false rest
  | c :: rest =>
    if inComment then
      if isPlain c then skipTrivia true rest else c :: rest
    else if isLineBlank c then skipTrivia false rest
    else if c = '#' then skipTrivia true rest
    else c :: rest

/-- The character that some hexadecimal digits name. -/
def takeUnicode? (count : Nat) (cs : List Char) : Option (Char × List Char) :=
  match if (cs.take count).length = count then Numeral.digits? 16 (cs.take count) else none with
  | some n => if n.isValidChar then some (Char.ofNat n, cs.drop count) else none
  | none => none

/-- The character of an escape, behind its backslash. -/
def takeEscape? : List Char → Option (Char × List Char)
  | 'b' :: rest => some ('\x08', rest)
  | 't' :: rest => some ('\t', rest)
  | 'n' :: rest => some ('\n', rest)
  | 'f' :: rest => some ('\x0c', rest)
  | 'r' :: rest => some ('\r', rest)
  | '"' :: rest => some ('"', rest)
  | '\\' :: rest => some ('\\', rest)
  | 'u' :: rest => takeUnicode? 4 rest
  | 'U' :: rest => takeUnicode? 8 rest
  | _ => none

theorem length_takeUnicode?_le {count : Nat} {cs rest : List Char} {c : Char}
    (h : takeUnicode? count cs = some (c, rest)) : rest.length ≤ cs.length := by
  unfold takeUnicode? at h
  split at h
  · split at h
    · cases h
      rw [List.length_drop]
      exact Nat.sub_le ..
    · cases h
  · cases h

/-- An escape takes characters. -/
theorem length_takeEscape?_lt {cs rest : List Char} {c : Char}
    (h : takeEscape? cs = some (c, rest)) : rest.length < cs.length := by
  unfold takeEscape? at h
  split at h
  case h_8 => exact Nat.lt_succ_of_le (length_takeUnicode?_le h)
  case h_9 => exact Nat.lt_succ_of_le (length_takeUnicode?_le h)
  case h_10 => cases h
  all_goals
    cases h
    exact Nat.lt_succ_self _

/-- The rest of a string in double quotes, behind the characters already read, last first. -/
def takeBasic? (reversed cs : List Char) : Option (String × List Char) :=
  match cs with
  | [] => none
  | '"' :: rest => some (String.ofList reversed.reverse, rest)
  | '\\' :: rest =>
    match _escape : takeEscape? rest with
    | some (c, after) => takeBasic? (c :: reversed) after
    | none => none
  | c :: rest => if isPlain c then takeBasic? (c :: reversed) rest else none
termination_by cs.length
decreasing_by
  · exact Nat.lt_succ_of_lt (length_takeEscape?_lt _escape)
  · exact Nat.lt_succ_self _

/-- The rest of a string in single quotes. -/
def takeLiteral? (cs : List Char) : Option (String × List Char) :=
  let isInside (c : Char) : Bool := isPlain c && c ≠ '\''
  match cs.dropWhile isInside with
  | '\'' :: rest => some (String.ofList (cs.takeWhile isInside), rest)
  | _ => none

/-- The end of a string of several lines, at a run of at least three quotes: up to two quotes in
front of the last three belong to the string. -/
def closeLines (quote : Char) (reversed cs : List Char) : String × List Char :=
  let run := (cs.takeWhile (· = quote)).length
  let inside := min 2 (run - 3)
  (String.ofList (List.replicate inside quote ++ reversed).reverse, cs.drop (inside + 3))

/-- The characters behind blanks and ends of lines. -/
def skipSpaces : List Char → List Char
  | [] => []
  | '\r' :: '\n' :: rest => skipSpaces rest
  | c :: rest => if isLineBlank c || c = '\n' then skipSpaces rest else c :: rest

/-- The characters behind a backslash at the end of a line: blanks and ends of lines, of which
there is at least one. -/
def dropLineJoint? (cs : List Char) : Option (List Char) :=
  (dropNewline? (skipBlanks cs)).map skipSpaces

theorem length_skipSpaces_le (cs : List Char) : (skipSpaces cs).length ≤ cs.length := by
  fun_induction skipSpaces cs with
  | case1 => exact Nat.le_refl _
  | case2 rest ih => exact Nat.le_succ_of_le (Nat.le_succ_of_le ih)
  | case3 c rest _ _ ih => exact Nat.le_succ_of_le ih
  | case4 => exact Nat.le_refl _

theorem length_dropNewline?_lt {cs rest : List Char} (h : dropNewline? cs = some rest) :
    rest.length < cs.length := by
  unfold dropNewline? at h
  split at h
  · cases h
    exact Nat.lt_succ_self _
  · cases h
    exact Nat.lt_succ_of_lt (Nat.lt_succ_self _)
  · cases h

/-- A line's end behind a backslash takes characters. -/
theorem length_dropLineJoint?_lt {cs rest : List Char} (h : dropLineJoint? cs = some rest) :
    rest.length < cs.length := by
  obtain ⟨after, newline, rfl⟩ := Option.map_eq_some_iff.1 h
  have := length_dropNewline?_lt newline
  have : (skipBlanks cs).length ≤ cs.length := (List.dropWhile_suffix _).length_le
  have := length_skipSpaces_le after
  omega

/-- The rest of a string of several lines in triple double quotes. -/
def takeBasicLines? (reversed cs : List Char) : Option (String × List Char) :=
  match cs with
  | [] => none
  | '"' :: '"' :: '"' :: rest => some (closeLines '"' reversed ('"' :: '"' :: '"' :: rest))
  | '"' :: rest => takeBasicLines? ('"' :: reversed) rest
  | '\\' :: rest =>
    match _escape : takeEscape? rest with
    | some (c, after) => takeBasicLines? (c :: reversed) after
    | none =>
      match _joint : dropLineJoint? rest with
      | some after => takeBasicLines? reversed after
      | none => none
  | '\n' :: rest => takeBasicLines? ('\n' :: reversed) rest
  | '\r' :: '\n' :: rest => takeBasicLines? ('\n' :: reversed) rest
  | c :: rest => if isPlain c then takeBasicLines? (c :: reversed) rest else none
termination_by cs.length
decreasing_by
  · exact Nat.lt_succ_self _
  · exact Nat.lt_succ_of_lt (length_takeEscape?_lt _escape)
  · exact Nat.lt_succ_of_lt (length_dropLineJoint?_lt _joint)
  · exact Nat.lt_succ_self _
  · exact Nat.lt_succ_of_lt (Nat.lt_succ_self _)
  · exact Nat.lt_succ_self _

/-- The rest of a string of several lines in triple single quotes. -/
def takeLiteralLines? (reversed : List Char) : List Char → Option (String × List Char)
  | [] => none
  | '\'' :: '\'' :: '\'' :: rest => some (closeLines '\'' reversed ('\'' :: '\'' :: '\'' :: rest))
  | '\n' :: rest => takeLiteralLines? ('\n' :: reversed) rest
  | '\r' :: '\n' :: rest => takeLiteralLines? ('\n' :: reversed) rest
  | c :: rest => if isPlain c then takeLiteralLines? (c :: reversed) rest else none

/-- The characters behind one end of a line, if there is one. -/
def skipNewline (cs : List Char) : List Char := (dropNewline? cs).getD cs

/-- A string of any kind. -/
def takeString? (cs : List Char) : Option (String × List Char) :=
  match cs with
  | '"' :: '"' :: '"' :: rest => takeBasicLines? [] (skipNewline rest)
  | '"' :: rest => takeBasic? [] rest
  | '\'' :: '\'' :: '\'' :: rest => takeLiteralLines? [] (skipNewline rest)
  | '\'' :: rest => takeLiteral? rest
  | _ => none

/-- Whether a character may stand in a key without quotes. -/
def isKeyChar (c : Char) : Bool := c.isAlphanum || c = '_' || c = '-'

/-- One part of a key. -/
def takeKeyPart? (cs : List Char) : Option (String × List Char) :=
  match cs with
  | '"' :: rest => takeBasic? [] rest
  | '\'' :: rest => takeLiteral? rest
  | _ =>
    let part := cs.takeWhile isKeyChar
    if part.isEmpty then none else some (String.ofList part, cs.dropWhile isKeyChar)

/-- How many values may lie within each other, and of how many parts a key may consist. -/
def depthLimit : Nat := 79

/-- A key of at most `parts` parts with points between them, behind the parts already read, last
first: the path in front of its last part, and that part. -/
def takeKeyFrom? (parts : Nat) (reversed : List String) (cs : List Char) :
    Option ((List String × String) × List Char) :=
  match parts with
  | 0 => none
  | parts + 1 =>
    match takeKeyPart? (skipBlanks cs) with
    | none => none
    | some (part, rest) =>
      match skipBlanks rest with
      | '.' :: rest => takeKeyFrom? parts (part :: reversed) rest
      | rest => some ((reversed.reverse, part), rest)

/-- A key, as the path in front of its last part and that part. -/
def takeKey? (cs : List Char) : Option ((List String × String) × List Char) :=
  takeKeyFrom? depthLimit [] cs

/-- Digits of a base, with single underscores between them: the digits alone. -/
def takeDigits? (base : Nat) (cs : List Char) : Option (List Char × List Char) :=
  match cs with
  | c :: rest => if (Numeral.digit? base c).isSome then more [c] rest else none
  | [] => none
where
  /-- Further digits behind those already read, last first. -/
  more (reversed : List Char) : List Char → Option (List Char × List Char)
    | '_' :: c :: rest =>
      if (Numeral.digit? base c).isSome then more (c :: reversed) rest else none
    | '_' :: [] => none
    | c :: rest =>
      if (Numeral.digit? base c).isSome then more (c :: reversed) rest
      else some (reversed.reverse, c :: rest)
    | [] => some (reversed.reverse, [])

/-- A sign, if there is one. -/
def takeSign : List Char → List Char × List Char
  | '+' :: rest => (['+'], rest)
  | '-' :: rest => (['-'], rest)
  | cs => ([], cs)

/-- The sign and the digits of a decimal integer, which has no zero in front of other digits. -/
def takeDecimal? (cs : List Char) : Option (List Char × List Char) :=
  let (sign, rest) := takeSign cs
  match rest with
  | '0' :: rest => some (sign ++ ['0'], rest)
  | _ => (takeDigits? 10 rest).map fun (ds, rest) => (sign ++ ds, rest)

/-- An integer in a base with a mark. -/
def takeMarked? (base : Nat) (cs : List Char) : Option (Toml × List Char) := do
  let (ds, rest) ← takeDigits? base cs
  let n ← Numeral.digitsUpTo? base Int64.maxValue.toInt.natAbs ds
  some (.integer n, rest)

/-- An integer of 64 bits. -/
def takeInteger? (cs : List Char) : Option (Toml × List Char) :=
  match cs with
  | '0' :: 'x' :: rest => takeMarked? 16 rest
  | '0' :: 'o' :: rest => takeMarked? 8 rest
  | '0' :: 'b' :: rest => takeMarked? 2 rest
  | _ => do
    let (ds, rest) ← takeDecimal? cs
    let n ← Numeral.signedWithin? 10 Int64.minValue.toInt Int64.maxValue.toInt ds
    some (.integer n, rest)

/-- What looks for a part at the front: it is not there, it is there but broken, or it is taken. -/
inductive Sought (α : Type) where
  | absent
  | broken
  | found (value : α) (rest : List Char)

/-- What is sought, where something that begins like it must be it. -/
def Sought.ofOption {α : Type} : Option (α × List Char) → Sought α
  | some (value, rest) => .found value rest
  | none => .broken

/-- The exponent of a floating-point number, with its mark. -/
def seekExponent (cs : List Char) : Sought (List Char) :=
  match cs with
  | c :: rest =>
    if c = 'e' ∨ c = 'E' then
      let (sign, rest) := takeSign rest
      .ofOption ((takeDigits? 10 rest).map fun (ds, rest) => ('e' :: sign ++ ds, rest))
    else .absent
  | [] => .absent

/-- The value of a floating-point numeral; one beyond all numbers is broken. -/
def floatValue (numeral : List Char) (rest : List Char) : Sought Toml :=
  match Binary64.ofText? (String.ofList numeral) with
  | none => .broken
  | some x => if x = Binary64.infinity false then .broken else .found (.float x) rest

/-- A word for infinity or for what is no number, behind its sign. -/
def seekSpecial (sign cs : List Char) : Sought Toml :=
  match cs with
  | 'i' :: 'n' :: 'f' :: rest => .found (.float (Binary64.infinity (sign = ['-']))) rest
  | 'n' :: 'a' :: 'n' :: rest => .found (.float Binary64.nan) rest
  | _ => .absent

/-- A floating-point number, which has a fraction or an exponent or is a word. -/
def seekFloat (cs : List Char) : Sought Toml :=
  match takeDecimal? cs with
  | none =>
    let (sign, rest) := takeSign cs
    seekSpecial sign rest
  | some (whole, rest) =>
    match rest with
    | '.' :: rest =>
      match takeDigits? 10 rest with
      | none => .broken
      | some (fraction, rest) =>
        match seekExponent rest with
        | .absent => floatValue (whole ++ '.' :: fraction) rest
        | .broken => .broken
        | .found e rest => floatValue (whole ++ '.' :: fraction ++ e) rest
    | _ =>
      match seekExponent rest with
      | .absent => .absent
      | .broken => .broken
      | .found e rest => floatValue (whole ++ e) rest

/-- A character that must come next. -/
def dropChar? (c : Char) : List Char → Option (List Char)
  | d :: rest => if c = d then some rest else none
  | [] => none

/-- The month and the day behind a year and its stroke. -/
def dropMonthDay? (year : Nat) (cs : List Char) : Option (List Char) := do
  let (month, rest) ← Numeral.takeField? 2 1 12 cs
  let rest ← dropChar? '-' rest
  let (day, rest) ← Numeral.takeField? 2 1 31 rest
  if day ≤ Date.daysIn year month then some rest else none

/-- The minute, the second and its fraction behind an hour and its colon. -/
def dropMinutes? (cs : List Char) : Option (List Char) := do
  let (_, rest) ← Numeral.takeField? 2 0 59 cs
  let rest ← dropChar? ':' rest
  let (_, rest) ← Numeral.takeField? 2 0 60 rest
  match rest with
  | '.' :: after =>
    if (after.takeWhile Char.isDigit).isEmpty then some rest
    else some (after.dropWhile Char.isDigit)
  | _ => some rest

/-- A time of day, which begins with an hour and a colon. -/
def seekTime (cs : List Char) : Sought Unit :=
  match (Numeral.takeField? 2 0 23 cs).bind fun (_, rest) => dropChar? ':' rest with
  | none => .absent
  | some rest => .ofOption ((dropMinutes? rest).map fun rest => ((), rest))

/-- An offset from universal time. -/
def seekOffset (cs : List Char) : Sought Unit :=
  match cs with
  | 'Z' :: rest => .found () rest
  | 'z' :: rest => .found () rest
  | c :: rest =>
    if c = '+' ∨ c = '-' then
      .ofOption do
        let (_, rest) ← Numeral.takeField? 2 0 23 rest
        let rest ← dropChar? ':' rest
        let (_, rest) ← Numeral.takeField? 2 0 59 rest
        some ((), rest)
    else .absent
  | [] => .absent

/-- A time of day and perhaps an offset behind a date, if its mark is followed by one. -/
def seekTimeAfterDate (cs : List Char) : Sought Unit :=
  match cs with
  | c :: rest =>
    if c = 'T' ∨ c = 't' ∨ c = ' ' then
      match seekTime rest with
      | .found () rest =>
        match seekOffset rest with
        | .absent => .found () rest
        | sought => sought
      | sought => sought
    else .absent
  | [] => .absent

/-- A date, a time of day, or both. -/
def seekDateTime (cs : List Char) : Sought Toml :=
  match (Numeral.takeField? 4 0 9999 cs).bind fun (year, rest) =>
      (dropChar? '-' rest).map fun rest => (year, rest) with
  | some (year, rest) =>
    match dropMonthDay? year rest with
    | none => .broken
    | some rest =>
      match seekTimeAfterDate rest with
      | .absent => .found .dateTime rest
      | .broken => .broken
      | .found () rest => .found .dateTime rest
  | none =>
    match seekTime cs with
    | .absent => .absent
    | .broken => .broken
    | .found () rest => .found .dateTime rest

/-- A number or a date: the first of the three that begins as they do. -/
def takeNumeric? (cs : List Char) : Option (Toml × List Char) :=
  match seekDateTime cs with
  | .found value rest => some (value, rest)
  | .broken => none
  | .absent =>
    match seekFloat cs with
    | .found value rest => some (value, rest)
    | .broken => none
    | .absent => takeInteger? cs

end CallTrace.Toml
