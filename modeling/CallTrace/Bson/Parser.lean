import CallTrace.Bson.Printer
import CallTrace.Bson.Spelling
import CallTrace.Bson.Window

/-!
Reading BSON. Fields are read up to the zero that ends their document; every length must fit, every
text must be well-formed, and every type octet must be known. A document in which a reserved key is
met is the value that the key spells, and what follows in it is not looked at. No key within the
operand of such a key is looked at (`takeOperand?`), save in the scope of a code.

Nesting and field count together are bounded by the number of octets, so a fuel of one more than
that never runs out.
-/

namespace CallTrace.Bson

/-- The octets of a binary and its subtype, without a second length, and what follows. -/
def takeBinary? (w : Window) : Option (Bson × Window) := do
  let (length, w) ← w.number? 4
  let (subtype, w) ← w.next?
  if subtype = oldBinary then
    if length < 4 then none
    else
      let (inner, w) ← w.number? 4
      if inner = length - 4 then (w.take? inner).map fun (octets, w) => (.binary subtype octets, w)
      else none
  else (w.take? length).map fun (octets, w) => (.binary subtype octets, w)

/-- An identifier, and what follows it. -/
def takeObjectId? (w : Window) : Option (ObjectId × Window) := do
  let (front, w) ← w.take? 12
  let id ← ObjectId.ofBytes? front
  some (id, w)

/-- A value without parts, by its type octet, and what follows it. -/
def takeScalar? (type : UInt8) (w : Window) : Option (Bson × Window) :=
  match type with
  | 0x01 => w.word64?.map fun (bits, w) => (.double ⟨bits⟩, w)
  | 0x02 => w.counted?.map fun (s, w) => (.string s, w)
  | 0x05 => takeBinary? w
  | 0x06 => some (.undefined, w)
  | 0x07 => (takeObjectId? w).map fun (id, w) => (.objectId id, w)
  | 0x08 =>
    match w.next? with
    | some (0, w) => some (.boolean false, w)
    | some (1, w) => some (.boolean true, w)
    | _ => none
  | 0x09 => w.word64?.map fun (n, w) => (.dateTime n.toInt64, w)
  | 0x0A => some (.null, w)
  | 0x0B => do
    let (pattern, w) ← w.zeroEnded?
    let (options, w) ← w.zeroEnded?
    some (.regex pattern (sortOptions options), w)
  | 0x0C => do
    let (space, w) ← w.counted?
    let (id, w) ← takeObjectId? w
    some (.dbPointer space id, w)
  | 0x0D => w.counted?.map fun (s, w) => (.code s, w)
  | 0x0E => w.counted?.map fun (s, w) => (.symbol s, w)
  | 0x10 => w.word32?.map fun (n, w) => (.int32 n.toInt32, w)
  | 0x11 => do
    let (increment, w) ← w.word32?
    let (time, w) ← w.word32?
    some (.timestamp time increment, w)
  | 0x12 => w.word64?.map fun (n, w) => (.int64 n.toInt64, w)
  | 0x13 => do
    let (low, w) ← w.word64?
    let (high, w) ← w.word64?
    some (.decimal128 ⟨low, high⟩, w)
  | 0xFF => some (.minKey, w)
  | 0x7F => some (.maxKey, w)
  | _ => none

/-- The beginning of a code with scope, whose length counts everything: the text, the window over
the contents of the scope, which reach to the end, and how many octets are left behind them. -/
def enterScopedCode? (w : Window) : Option (String × Window × Nat) := do
  let (length, w) ← w.number? 4
  if length < 14 ∨ w.left < length - 4 then none
  else
    let (text, inner) ← Window.counted? ⟨w.bytes, length - 4⟩
    let (scope, excess) ← inner.enter?
    if excess = 0 then some (text, scope, w.left - (length - 4)) else none

/-- A text by its type octet, and what follows it. -/
def takeText? (type : UInt8) (w : Window) : Option (String × Window) := do
  let (value, w) ← takeScalar? type w
  let text ← Spelling.Operand.text? (.scalar value)
  some (text, w)

mutual

/-- An operand by its type octet, and what follows it. -/
def takeOperand? (fuel : Nat) (type : UInt8) (w : Window) : Option (Spelling.Operand × Window) :=
  match fuel with
  | 0 => none
  | fuel + 1 =>
    if type = 0x03 then
      match w.enter? with
      | none => none
      | some (inner, left) =>
        (operandFields? fuel inner []).map fun (fields, rest) => (.record fields, ⟨rest, left⟩)
    else if type = 0x04 then
      match w.enter? with
      | none => none
      | some (inner, left) =>
        let (known, whole) := operandItems fuel inner []
        inner.close?.map fun rest => (.items known whole, ⟨rest, left⟩)
    else (takeScalar? type w).map fun (value, w) => (.scalar value, w)

/-- The fields of an operand up to the zero at the end, behind those already read, which stand in
reverse. With them comes what follows the operand. -/
def operandFields? (fuel : Nat) (w : Window) (reversed : List (String × Spelling.Operand)) :
    Option (List (String × Spelling.Operand) × Bytes) :=
  match fuel with
  | 0 => none
  | fuel + 1 =>
    if w.left = 1 then w.close?.map fun rest => (reversed.reverse, rest)
    else
      match w.field? with
      | none => none
      | some (type, key, w) =>
        match takeOperand? fuel type w with
        | none => none
        | some (part, after) => operandFields? fuel after ((key, part) :: reversed)

/-- The items of an operand, behind those already read, which stand in reverse, and whether they are
all up to the zero at the end. -/
def operandItems (fuel : Nat) (w : Window) (reversed : List Spelling.Operand) :
    List Spelling.Operand × Bool :=
  match fuel with
  | 0 => (reversed.reverse, false)
  | fuel + 1 =>
    if w.left = 1 then (reversed.reverse, w.close?.isSome)
    else
      match w.field? with
      | none => (reversed.reverse, false)
      | some (type, _, w) =>
        match takeOperand? fuel type w with
        | none => (reversed.reverse, false)
        | some (item, after) => operandItems fuel after (item :: reversed)

end

/-- The code behind its scope, in the same document, and what follows the document. -/
def codeBehindScope? (scope : Document) (w : Window) : Option (Bson × Bytes) := do
  let (type, key, w) ← w.field?
  if Spelling.ofKey? key = some .code then
    let (text, _) ← takeText? type w
    let rest ← w.close?
    some (.codeWithScope text scope, rest)
  else none

mutual

/-- A value by its type octet, and what follows it. -/
def takeValue? (fuel : Nat) (type : UInt8) (w : Window) : Option (Bson × Window) :=
  match fuel with
  | 0 => none
  | fuel + 1 =>
    if type = 0x03 then
      match w.enter? with
      | none => none
      | some (inner, left) =>
        match fields? fuel inner [] with
        | none => none
        | some (value, rest) => some (value, ⟨rest, left⟩)
    else if type = 0x04 then
      match w.enter? with
      | none => none
      | some (inner, left) =>
        match items? fuel inner [] with
        | none => none
        | some (items, rest) => some (.array items, ⟨rest, left⟩)
    else if type = 0x0F then
      match enterScopedCode? w with
      | none => none
      | some (text, scope, left) =>
        match fields? fuel scope [] with
        | some (.document fields, rest) => some (.codeWithScope text fields, ⟨rest, left⟩)
        | _ => none
    else takeScalar? type w

/-- The document of the fields up to the zero at the end, behind those already read; or the value
that a reserved key spells. With it comes what follows the document. -/
def fields? (fuel : Nat) (w : Window) (before : Document) : Option (Bson × Bytes) :=
  match fuel with
  | 0 => none
  | fuel + 1 =>
    if w.left = 1 then w.close?.map fun rest => (.document before, rest)
    else
      match w.field? with
      | none => none
      | some (type, key, w) =>
        match Spelling.ofKey? key with
        | none =>
          match takeValue? fuel type w with
          | none => none
          | some (value, after) => fields? fuel after (before.insert key value)
        | some .code =>
          match takeText? type w with
          | none => none
          | some (text, after) => scopedCode? fuel text after
        | some .scope =>
          match takeValue? fuel type w with
          | some (.document scope, after) => codeBehindScope? scope after
          | _ => none
        | some spelling =>
          match (takeOperand? fuel type w).bind fun (operand, _) => spelling.value? operand with
          | none => none
          | some spelled => w.close?.map fun rest => (spelled, rest)

/-- The value of a document whose key `$code` has the given text: what follows is nothing, or a
scope. With it comes what follows the document. -/
def scopedCode? (fuel : Nat) (text : String) (w : Window) : Option (Bson × Bytes) :=
  match fuel with
  | 0 => none
  | fuel + 1 =>
    if w.left = 1 then w.close?.map fun rest => (.code text, rest)
    else
      match w.field? with
      | none => none
      | some (type, key, w) =>
        if Spelling.ofKey? key = some .scope then
          match takeValue? fuel type w with
          | some (.document scope, _) => w.close?.map fun rest => (.codeWithScope text scope, rest)
          | _ => none
        else none

/-- The items up to the zero at the end, behind those already read, which stand in reverse. Their
keys are not looked at. With them comes what follows the array. -/
def items? (fuel : Nat) (w : Window) (reversed : List Bson) : Option (List Bson × Bytes) :=
  match fuel with
  | 0 => none
  | fuel + 1 =>
    if w.left = 1 then w.close?.map fun rest => (reversed.reverse, rest)
    else
      match w.field? with
      | none => none
      | some (type, _, w) =>
        match takeValue? fuel type w with
        | none => none
        | some (value, after) => items? fuel after (value :: reversed)

end

end CallTrace.Bson

namespace CallTrace.Document

/-- The document whose octets, without its length, are given. The length is taken to be theirs and
four more, as a signed number of 32 bits; octets beyond it are not looked at. -/
def parseBody? (body : Bytes) : Option Document :=
  let length := (body.length + 4) % 0x100000000
  if length < 5 ∨ 0x80000000 ≤ length then none
  else
    let size := length - 4
    match Bson.fields? (size + 1) ⟨body, size⟩ [] with
    | some (.document fields, _) => some fields
    | _ => none

end CallTrace.Document
