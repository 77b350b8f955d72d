import CallTrace.Bson.Parser
import CallTrace.Proofs.Text.Octets

/-!
What is written is read back. `takeValue?_payload` says so of every value that stands for itself,
in front of anything that follows it, and `parseBody?_fieldsOctets` of whole documents.

A value stands for itself if no key in it is reserved or repeated, and if its texts that end in a
zero hold none (`Readable`). A document is also given back only if its length is one of 31 bits.
-/

namespace CallTrace

namespace Bson

/-! ## Texts without a zero -/

theorem zero_not_mem_encode {s : String} (free : zeroFree s = true) :
    (0 : UInt8) ∉ Utf8.encode s := by
  intro mem
  obtain ⟨c, here, zero⟩ := Utf8.exists_mem_of_mem_encode mem (by decide)
  obtain rfl : c = '\x00' := Char.toNat_inj.1 zero
  simp [zeroFree, here] at free

theorem zeroFree_indexKey (index : Nat) : zeroFree (indexKey index) = true := by
  have absent : '\x00' ∉ Numeral.decimal index := by
    intro mem
    have digit := Nat.isDigit_of_mem_toDigits (by decide) (by decide) mem
    revert digit
    decide
  unfold zeroFree indexKey
  rw [String.toList_ofList]
  simpa using absent

/-! ## Parts of a value -/

namespace Window

theorem zeroEnded?_zeroEnded {s : String} (free : zeroFree s = true) (rest : Bytes) (left : Nat) :
    (⟨zeroEnded s ++ rest, (zeroEnded s).length + left⟩ : Window).zeroEnded?
      = some (s, ⟨rest, left⟩) := by
  have shape : (⟨zeroEnded s ++ rest, (zeroEnded s).length + left⟩ : Window)
      = ⟨Utf8.encode s ++ 0 :: rest, (Utf8.encode s).length + (left + 1)⟩ := by
    simp [zeroEnded]
    omega
  rw [shape, zeroEnded?_append (zero_not_mem_encode free)]

theorem field?_append (type : UInt8) {key : String} (free : zeroFree key = true) (rest : Bytes)
    (left : Nat) :
    (⟨type :: (zeroEnded key ++ rest), (zeroEnded key).length + left + 1⟩ : Window).field?
      = some (type, key, ⟨rest, left⟩) := by
  simp [field?, next?, zeroEnded?_zeroEnded free]

theorem counted?_counted {s : String}
    (small : (Utf8.encode s).length + 1 < LittleEndian.capacity 4) (rest : Bytes) (left : Nat) :
    (⟨counted s ++ rest, (counted s).length + left⟩ : Window).counted?
      = some (s, ⟨rest, left⟩) := by
  have shape : (⟨counted s ++ rest, (counted s).length + left⟩ : Window)
      = ⟨LittleEndian.digits 4 ((Utf8.encode s).length + 1) ++ (Utf8.encode s ++ 0 :: rest),
          4 + ((Utf8.encode s).length + (left + 1))⟩ := by
    simp [counted]
    omega
  rw [shape, counted?, number?_append small]
  simp [text?_append]

theorem enter?_enclosed {contents : Bytes} (small : contents.length + 5 < LittleEndian.capacity 4)
    (rest : Bytes) (left : Nat) :
    (⟨enclosed contents ++ rest, (enclosed contents).length + left⟩ : Window).enter?
      = some (⟨contents ++ 0 :: rest, contents.length + 1⟩, left) := by
  have shape : (⟨enclosed contents ++ rest, (enclosed contents).length + left⟩ : Window)
      = ⟨LittleEndian.digits 4 (contents.length + 5) ++ (contents ++ 0 :: rest),
          4 + (contents.length + 1 + left)⟩ := by
    simp [enclosed]
    omega
  have length : contents.length + 5 - 4 = contents.length + 1 := rfl
  rw [shape, enter?, number?_append small]
  dsimp only [Option.bind_eq_bind, Option.bind_some]
  rw [if_neg (by omega), length, Nat.add_sub_cancel_left]

theorem word64?_ofWord64 (n : UInt64) (rest : Bytes) (left : Nat) :
    (⟨LittleEndian.ofWord64 n ++ rest, (LittleEndian.ofWord64 n).length + left⟩ : Window).word64?
      = some (n, ⟨rest, left⟩) := by
  rw [LittleEndian.ofWord64, LittleEndian.length_digits]
  exact word64?_append n rest left

theorem word32?_ofWord32 (n : UInt32) (rest : Bytes) (left : Nat) :
    (⟨LittleEndian.ofWord32 n ++ rest, (LittleEndian.ofWord32 n).length + left⟩ : Window).word32?
      = some (n, ⟨rest, left⟩) := by
  rw [LittleEndian.ofWord32, LittleEndian.length_digits]
  exact word32?_append n rest left

end Window

theorem takeObjectId?_append (id : ObjectId) (rest : Bytes) (left : Nat) :
    takeObjectId? ⟨id.bytes ++ rest, id.bytes.length + left⟩ = some (id, ⟨rest, left⟩) := by
  have taken := Window.take?_append id.bytes rest left
  have back : ObjectId.ofBytes? id.bytes = some id := by
    unfold ObjectId.ofBytes?
    rw [dif_pos id.length_bytes]
  have twelve : takeObjectId? ⟨id.bytes ++ rest, id.bytes.length + left⟩
      = (Window.take? ⟨id.bytes ++ rest, id.bytes.length + left⟩ id.bytes.length).bind
          fun part => (ObjectId.ofBytes? part.1).bind fun id => some (id, part.2) := by
    rw [takeObjectId?, id.length_bytes]
    rfl
  rw [twelve, taken, Option.bind_some, back, Option.bind_some]

theorem takeBinary?_payload {subtype : UInt8} {bytes : Bytes}
    (small : bytes.length + 4 < LittleEndian.capacity 4) (rest : Bytes) (left : Nat) :
    takeBinary? ⟨payload (.binary subtype bytes) ++ rest,
        (payload (.binary subtype bytes)).length + left⟩
      = some (.binary subtype bytes, ⟨rest, left⟩) := by
  have octets := Window.take?_append bytes rest left
  by_cases old : subtype = oldBinary
  · have shape : (⟨payload (.binary subtype bytes) ++ rest,
          (payload (.binary subtype bytes)).length + left⟩ : Window)
        = ⟨LittleEndian.digits 4 (bytes.length + 4) ++ subtype ::
            (LittleEndian.digits 4 bytes.length ++ (bytes ++ rest)),
            4 + ((4 + (bytes.length + left)) + 1)⟩ := by
      rw [payload, if_pos old]
      simp
      omega
    have inner := Window.number?_append (Nat.lt_of_le_of_lt (Nat.le_add_right _ 4) small)
      (bytes ++ rest) (bytes.length + left)
    rw [shape, takeBinary?, Window.number?_append small]
    simp [Window.next?, old, inner, octets]
  · have shape : (⟨payload (.binary subtype bytes) ++ rest,
          (payload (.binary subtype bytes)).length + left⟩ : Window)
        = ⟨LittleEndian.digits 4 bytes.length ++ subtype :: (bytes ++ rest),
            4 + ((bytes.length + left) + 1)⟩ := by
      rw [payload, if_neg old]
      simp
      omega
    have small' : bytes.length < LittleEndian.capacity 4 := by omega
    rw [shape, takeBinary?, Window.number?_append small']
    simp [Window.next?, old, octets]

/-! ## Values that stand for themselves -/

mutual

/-- Whether a value is read as itself: no key is reserved or repeated, and the texts that end in a
zero hold none. -/
def Readable : Bson → Prop
  | .document fields => FieldsReadable fields
  | .array items => ItemsReadable items
  | .regex pattern options =>
    zeroFree pattern = true ∧ zeroFree options = true ∧ sortOptions options = options
  | .codeWithScope _ scope => FieldsReadable scope
  | _ => True

/-- Whether all fields are read as themselves. -/
def FieldsReadable : List (String × Bson) → Prop
  | [] => True
  | (key, value) :: rest =>
    zeroFree key = true ∧ Spelling.ofKey? key = none ∧ key ∉ rest.map Prod.fst ∧
      Readable value ∧ FieldsReadable rest

/-- Whether all items are read as themselves. -/
def ItemsReadable : List Bson → Prop
  | [] => True
  | item :: rest => Readable item ∧ ItemsReadable rest

end

/-- Whether a value has no parts that are values. -/
def IsScalar : Bson → Prop
  | .document _ => False
  | .array _ => False
  | .codeWithScope .. => False
  | _ => True

/-- The length of a text that was counted can be written if that of the octets can. -/
theorem length_lt_of_counted {s : String} (rest : Bytes)
    (small : (counted s ++ rest).length < LittleEndian.capacity 4) :
    (Utf8.encode s).length + 1 < LittleEndian.capacity 4 := by
  simp only [counted, List.length_append, LittleEndian.length_digits, List.length_singleton]
    at small
  omega

theorem takeScalar?_payload {value : Bson} (scalar : IsScalar value) (readable : Readable value)
    (small : (payload value).length < LittleEndian.capacity 4) (rest : Bytes) (left : Nat) :
    takeScalar? (typeOctet value) ⟨payload value ++ rest, (payload value).length + left⟩
      = some (value, ⟨rest, left⟩) := by
  cases value with
  | document fields => cases scalar
  | array items => cases scalar
  | codeWithScope text scope => cases scalar
  | undefined => simp [typeOctet, payload, takeScalar?]
  | null => simp [typeOctet, payload, takeScalar?]
  | minKey => simp [typeOctet, payload, takeScalar?]
  | maxKey => simp [typeOctet, payload, takeScalar?]
  | boolean b =>
    have octet : (⟨payload (.boolean b) ++ rest, (payload (.boolean b)).length + left⟩ : Window)
        = ⟨(if b then 1 else 0) :: rest, left + 1⟩ := by
      simp [payload]
      omega
    rw [octet]
    cases b <;> rfl
  | binary subtype bytes =>
    have fits : bytes.length + 4 < LittleEndian.capacity 4 := by
      rw [payload] at small
      split at small
      all_goals
        simp only [List.length_append, List.length_cons, LittleEndian.length_digits] at small
        omega
    exact takeBinary?_payload fits rest left
  | double x =>
    rw [typeOctet, payload, takeScalar?, Window.word64?_ofWord64]
    rfl
  | dateTime millis =>
    rw [typeOctet, payload, takeScalar?, Window.word64?_ofWord64]
    rfl
  | int64 n =>
    rw [typeOctet, payload, takeScalar?, Window.word64?_ofWord64]
    rfl
  | int32 n =>
    rw [typeOctet, payload, takeScalar?, Window.word32?_ofWord32]
    rfl
  | timestamp time increment =>
    rw [payload, List.append_assoc, List.length_append, Nat.add_assoc, typeOctet, takeScalar?,
      Window.word32?_ofWord32]
    dsimp only [Option.bind_eq_bind, Option.bind_some]
    rw [Window.word32?_ofWord32]
    rfl
  | decimal128 d =>
    rw [payload, List.append_assoc, List.length_append, Nat.add_assoc, typeOctet, takeScalar?,
      Window.word64?_ofWord64]
    dsimp only [Option.bind_eq_bind, Option.bind_some]
    rw [Window.word64?_ofWord64]
    rfl
  | string s =>
    rw [payload] at small ⊢
    rw [← List.append_nil (counted s)] at small
    rw [typeOctet, takeScalar?, Window.counted?_counted (length_lt_of_counted _ small)]
    rfl
  | code s =>
    rw [payload] at small ⊢
    rw [← List.append_nil (counted s)] at small
    rw [typeOctet, takeScalar?, Window.counted?_counted (length_lt_of_counted _ small)]
    rfl
  | symbol s =>
    rw [payload] at small ⊢
    rw [← List.append_nil (counted s)] at small
    rw [typeOctet, takeScalar?, Window.counted?_counted (length_lt_of_counted _ small)]
    rfl
  | objectId id =>
    rw [payload, typeOctet, takeScalar?, takeObjectId?_append]
    rfl
  | dbPointer space id =>
    rw [payload] at small ⊢
    rw [List.append_assoc, List.length_append, Nat.add_assoc, typeOctet, takeScalar?,
      Window.counted?_counted (length_lt_of_counted _ small)]
    dsimp only [Option.bind_eq_bind, Option.bind_some]
    rw [takeObjectId?_append]
    rfl
  | regex pattern options =>
    obtain ⟨patternFree, optionsFree, sorted⟩ := readable
    rw [payload, sorted, List.append_assoc, List.length_append, Nat.add_assoc, typeOctet,
      takeScalar?, Window.zeroEnded?_zeroEnded patternFree]
    dsimp only [Option.bind_eq_bind, Option.bind_some]
    rw [Window.zeroEnded?_zeroEnded optionsFree]
    dsimp only [Option.bind_some]
    rw [sorted]

/-! ## Values with parts -/

theorem insert_of_absent {d : Document} {key : String} (absent : key ∉ d.map Prod.fst)
    (value : Bson) : d.insert key value = d ++ [(key, value)] := by
  induction d with
  | nil => rfl
  | cons field later ih =>
    obtain ⟨other, kept⟩ := field
    rw [List.map_cons, List.mem_cons, not_or] at absent
    rw [Document.insert, if_neg (Ne.symm absent.1), ih absent.2, List.cons_append]

theorem length_enclosed (contents : Bytes) : (enclosed contents).length = contents.length + 5 := by
  simp [enclosed]
  omega

/-- A scope reaches to the end of its code. -/
theorem enterScopedCode?_payload {text : String} {scope : List (String × Bson)}
    (small : (payload (.codeWithScope text scope)).length < LittleEndian.capacity 4) (rest : Bytes)
    (left : Nat) :
    enterScopedCode? ⟨payload (.codeWithScope text scope) ++ rest,
        (payload (.codeWithScope text scope)).length + left⟩
      = some (text, ⟨fieldsOctets scope ++ 0 :: rest, (fieldsOctets scope).length + 1⟩, left) := by
  have parts : (payload (.codeWithScope text scope)).length
      = 4 + ((counted text).length + (enclosed (fieldsOctets scope)).length) := by
    rw [payload]
    simp only [List.length_append, LittleEndian.length_digits]
  have inner : (enclosed (fieldsOctets scope)).length = (fieldsOctets scope).length + 5 :=
    length_enclosed _
  have room : 5 ≤ (counted text).length := by
    simp only [counted, List.length_append, LittleEndian.length_digits, List.length_singleton]
    omega
  have shape : (⟨payload (.codeWithScope text scope) ++ rest,
        (payload (.codeWithScope text scope)).length + left⟩ : Window)
      = ⟨LittleEndian.digits 4
            ((counted text).length + (enclosed (fieldsOctets scope)).length + 4)
          ++ (counted text ++ (enclosed (fieldsOctets scope) ++ rest)),
          4 + ((counted text).length + (enclosed (fieldsOctets scope)).length + left)⟩ := by
    rw [parts, payload, List.append_assoc, List.append_assoc, List.length_append]
    congr 1
    omega
  have total : (counted text).length + (enclosed (fieldsOctets scope)).length + 4
      < LittleEndian.capacity 4 := by omega
  have scopeFits : (fieldsOctets scope).length + 5 < LittleEndian.capacity 4 := by omega
  have textFits : (Utf8.encode text).length + 1 < LittleEndian.capacity 4 := by
    apply length_lt_of_counted (enclosed (fieldsOctets scope))
    rw [List.length_append]
    omega
  have textRead := Window.counted?_counted textFits (enclosed (fieldsOctets scope) ++ rest)
    (enclosed (fieldsOctets scope)).length
  have scopeRead := Window.enter?_enclosed scopeFits rest 0
  rw [Nat.add_zero] at scopeRead
  rw [shape, enterScopedCode?, Window.number?_append total]
  dsimp only [Option.bind_eq_bind, Option.bind_some]
  rw [if_neg (by omega), Nat.add_sub_cancel, textRead]
  dsimp only [Option.bind_some]
  rw [scopeRead]
  dsimp only [Option.bind_some]
  rw [if_pos rfl, Nat.add_sub_cancel_left]

theorem takeValue?_of_scalar {value : Bson} (scalar : IsScalar value) (fuel : Nat) (w : Window) :
    takeValue? (fuel + 1) (typeOctet value) w = takeScalar? (typeOctet value) w := by
  cases value with
  | document fields => cases scalar
  | array items => cases scalar
  | codeWithScope text scope => cases scalar
  | _ => simp [takeValue?, typeOctet]

mutual

theorem takeValue?_payload (value : Bson) (readable : Readable value)
    (small : (payload value).length < LittleEndian.capacity 4) {fuel : Nat}
    (enough : (payload value).length < fuel) (rest : Bytes) (left : Nat) :
    takeValue? fuel (typeOctet value) ⟨payload value ++ rest, (payload value).length + left⟩
      = some (value, ⟨rest, left⟩) := by
  match fuel with
  | 0 => exact absurd enough (Nat.not_lt_zero _)
  | fuel + 1 =>
    cases value with
    | document fields =>
      rw [Readable] at readable
      rw [payload] at small enough ⊢
      rw [length_enclosed] at small enough
      rw [typeOctet, takeValue?, if_pos rfl, Window.enter?_enclosed small]
      dsimp only
      rw [fields?_fieldsOctets fields readable (by omega) (by omega) [] (by simp)]
      rfl
    | array items =>
      rw [Readable] at readable
      rw [payload] at small enough ⊢
      rw [length_enclosed] at small enough
      rw [typeOctet, takeValue?, if_neg (by decide), if_pos rfl, Window.enter?_enclosed small]
      dsimp only
      rw [items?_itemsOctets items 0 readable (by omega) (by omega) []]
      rfl
    | codeWithScope text scope =>
      rw [Readable] at readable
      have inner : (fieldsOctets scope).length < (payload (.codeWithScope text scope)).length := by
        rw [payload]
        simp only [List.length_append, length_enclosed]
        omega
      rw [typeOctet, takeValue?, if_neg (by decide), if_neg (by decide), if_pos rfl,
        enterScopedCode?_payload small]
      dsimp only
      rw [fields?_fieldsOctets scope readable (by omega) (by omega) [] (by simp)]
      rfl
    | _ =>
      exact (takeValue?_of_scalar (by trivial) fuel _).trans
        (takeScalar?_payload (by trivial) readable small rest left)

theorem fields?_fieldsOctets (fields : List (String × Bson)) (readable : FieldsReadable fields)
    (small : (fieldsOctets fields).length < LittleEndian.capacity 4) {fuel : Nat}
    (enough : (fieldsOctets fields).length < fuel) (before : Document)
    (distinct : ∀ key ∈ fields.map Prod.fst, key ∉ before.map Prod.fst) (rest : Bytes) :
    fields? fuel ⟨fieldsOctets fields ++ 0 :: rest, (fieldsOctets fields).length + 1⟩ before
      = some (.document (before ++ fields), rest) := by
  match fuel, fields with
  | 0, _ => exact absurd enough (Nat.not_lt_zero _)
  | fuel + 1, [] =>
    rw [fieldsOctets, List.append_nil, fields?, if_pos (by rfl)]
    rfl
  | fuel + 1, (key, value) :: later =>
    rw [FieldsReadable] at readable
    obtain ⟨keyFree, plain, unique, valueReadable, laterReadable⟩ := readable
    have absent : key ∉ before.map Prod.fst := distinct key List.mem_cons_self
    have octets : (⟨fieldsOctets ((key, value) :: later) ++ 0 :: rest,
          (fieldsOctets ((key, value) :: later)).length + 1⟩ : Window)
        = ⟨typeOctet value :: (zeroEnded key ++ (payload value
              ++ (fieldsOctets later ++ 0 :: rest))),
            (zeroEnded key).length + ((payload value).length
              + ((fieldsOctets later).length + 1)) + 1⟩ := by
      rw [fieldsOctets]
      simp
      omega
    rw [fieldsOctets] at small enough
    simp only [List.length_cons, List.length_append] at small enough
    have distinct' : ∀ other ∈ later.map Prod.fst,
        other ∉ (before ++ [(key, value)]).map Prod.fst := by
      intro other mem here
      rw [List.map_append, List.mem_append] at here
      rcases here with here | here
      · exact distinct other (List.mem_cons_of_mem key mem) here
      · rw [List.map_singleton, List.mem_singleton] at here
        rw [here] at mem
        exact unique mem
    rw [octets, fields?, if_neg (by simp), Window.field?_append _ keyFree]
    dsimp only
    rw [plain]
    dsimp only
    rw [takeValue?_payload value valueReadable (by omega) (by omega)]
    dsimp only
    rw [insert_of_absent absent,
      fields?_fieldsOctets later laterReadable (by omega) (by omega) _ distinct',
      List.append_assoc]
    rfl

theorem items?_itemsOctets (items : List Bson) (index : Nat) (readable : ItemsReadable items)
    (small : (itemsOctets index items).length < LittleEndian.capacity 4) {fuel : Nat}
    (enough : (itemsOctets index items).length < fuel) (reversed : List Bson) (rest : Bytes) :
    items? fuel ⟨itemsOctets index items ++ 0 :: rest, (itemsOctets index items).length + 1⟩
        reversed
      = some (reversed.reverse ++ items, rest) := by
  match fuel, items with
  | 0, _ => exact absurd enough (Nat.not_lt_zero _)
  | fuel + 1, [] =>
    rw [itemsOctets, List.append_nil, items?, if_pos (by rfl)]
    rfl
  | fuel + 1, item :: later =>
    rw [ItemsReadable] at readable
    obtain ⟨itemReadable, laterReadable⟩ := readable
    have octets : (⟨itemsOctets index (item :: later) ++ 0 :: rest,
          (itemsOctets index (item :: later)).length + 1⟩ : Window)
        = ⟨typeOctet item :: (zeroEnded (indexKey index) ++ (payload item
              ++ (itemsOctets (index + 1) later ++ 0 :: rest))),
            (zeroEnded (indexKey index)).length + ((payload item).length
              + ((itemsOctets (index + 1) later).length + 1)) + 1⟩ := by
      rw [itemsOctets]
      simp
      omega
    rw [itemsOctets] at small enough
    simp only [List.length_cons, List.length_append] at small enough
    rw [octets, items?, if_neg (by simp), Window.field?_append _ (zeroFree_indexKey index)]
    dsimp only
    rw [takeValue?_payload item itemReadable (by omega) (by omega)]
    dsimp only
    rw [items?_itemsOctets later (index + 1) laterReadable (by omega) (by omega),
      List.reverse_cons, List.append_assoc]
    rfl

end

end Bson

theorem Document.parseBody?_fieldsOctets {d : Document} (readable : Bson.FieldsReadable d)
    (small : (Bson.fieldsOctets d).length + 5 < 0x80000000) :
    Document.parseBody? (Bson.fieldsOctets d ++ [0]) = some d := by
  have size : ((Bson.fieldsOctets d ++ [0]).length + 4) % 0x100000000
      = (Bson.fieldsOctets d).length + 5 := by
    rw [List.length_append, List.length_singleton]
    omega
  have fits : (Bson.fieldsOctets d).length < LittleEndian.capacity 4 :=
    Nat.lt_trans (by omega) (show 0x80000000 < LittleEndian.capacity 4 by decide)
  have read : Bson.fields? ((Bson.fieldsOctets d).length + 2)
      ⟨Bson.fieldsOctets d ++ [0], (Bson.fieldsOctets d).length + 1⟩ [] = some (.document d, []) :=
    Bson.fields?_fieldsOctets d readable fits (by omega) [] (by simp) []
  unfold Document.parseBody?
  rw [size]
  dsimp only
  rw [if_neg (by omega), Nat.add_sub_assoc (by omega), read]

end CallTrace
