import CallTrace.Message.Document
import CallTrace.Proofs.Text.Hexadecimal
import CallTrace.Proofs.Text.Trimmed

/-!
The number behind a text, the number behind an argument, and the number behind a constant of a flag
table.

`Value.DigitsIn` takes from a text what is to be its digits, and `Value.hexBits?_eq_some_iff` and
`Value.hexBits?_eq_none_iff` say which number these are or why they are none. The text of a pointer
is one that spells its number, so that different pointers of one width have different texts
(`Value.texts_spell_numbers`).

The constant of a table loses its sign at once. The argument is converted first, and a pointer
becomes a text, of which the number is read again. `flagBits?_apply` says that both are the same
number, whatever the conversion.
-/

namespace CallTrace

/-! ## Marks in front -/

/-- A text without the mark in its front, if it has one of some marks there. -/
inductive Unmarked (marks : List (List Char)) : List Char → List Char → Prop
  | marked {mark rest : List Char} : mark ∈ marks → Unmarked marks (mark ++ rest) rest
  | plain {cs : List Char} : (∀ mark ∈ marks, ¬mark <+: cs) → Unmarked marks cs cs

theorem exists_unmarked (marks : List (List Char)) (cs : List Char) :
    ∃ rest, Unmarked marks cs rest := by
  by_cases marked : ∃ mark ∈ marks, mark <+: cs
  · obtain ⟨mark, mem, rest, rfl⟩ := marked
    exact ⟨rest, .marked mem⟩
  · exact ⟨cs, .plain fun mark mem front => marked ⟨mark, mem, front⟩⟩

theorem Numeral.unsignedUpTo?_of_unmarked {base bound : Nat} {cs digits : List Char}
    (unmarked : Unmarked [['+']] cs digits) :
    unsignedUpTo? base bound cs = digitsUpTo? base bound digits := by
  cases unmarked with
  | marked mem =>
    rw [List.mem_singleton.1 mem]
    rfl
  | plain absent =>
    unfold unsignedUpTo?
    split
    next rest => exact absurd (List.prefix_append ['+'] rest) (absent _ List.mem_cons_self)
    next => rfl

namespace Value

/-! ## Numbers in text -/

/-- The marks of hexadecimal numbers. -/
def hexMarks : List (List Char) := [['0', 'x'], ['0', 'X']]

/-- What is to be digits in a text: what is left of it without the blanks at its ends, without one
mark in front of that, and then without one plus. -/
def DigitsIn (s : String) (digits : List Char) : Prop :=
  ∃ trimmed number, IsTrimmed s.toList trimmed ∧ Unmarked hexMarks trimmed number ∧
    Unmarked [['+']] number digits

/-- What spells no number of 64 bits: nothing, a minus in front, a mark again, a character that is
no digit, or the digits of a larger number. -/
inductive Unreadable : List Char → Prop
  | empty : Unreadable []
  | minus (rest : List Char) : Unreadable ('-' :: rest)
  | marked {mark : List Char} : mark ∈ hexMarks → (rest : List Char) → Unreadable (mark ++ rest)
  | foreign {digits : List Char} {c : Char} :
    c ∈ digits → (∀ d, ¬Hex.IsDigit c d) → Unreadable digits
  | large {digits : List Char} {n : Nat} :
    Hex.Spells digits n → 2 ^ 64 ≤ n → Unreadable digits

variable {s : String} {digits : List Char} {n : UInt64}

theorem exists_digitsIn (s : String) : ∃ digits, DigitsIn s digits := by
  obtain ⟨number, unmarked⟩ := exists_unmarked hexMarks (trim s.toList)
  obtain ⟨digits, unsigned⟩ := exists_unmarked [['+']] number
  exact ⟨digits, _, _, isTrimmed_trim s.toList, unmarked, unsigned⟩

/-- What the digits of a text decide is said of the digits that it has. -/
theorem iff_exists_digitsIn {result : Prop} {property : List Char → Prop}
    (decides : ∀ digits, DigitsIn s digits → (result ↔ property digits)) :
    result ↔ ∃ digits, DigitsIn s digits ∧ property digits := by
  constructor
  · intro holds
    obtain ⟨digits, here⟩ := exists_digitsIn s
    exact ⟨digits, here, (decides digits here).1 holds⟩
  · intro found
    obtain ⟨digits, here, holds⟩ := found
    exact (decides digits here).2 holds

theorem dropHexMark_of_unmarked {cs rest : List Char} (unmarked : Unmarked hexMarks cs rest) :
    dropHexMark cs = rest := by
  cases unmarked with
  | marked mem =>
    rcases List.mem_cons.1 mem with lower | mem
    · rw [lower]
      rfl
    · rw [List.mem_singleton.1 mem]
      rfl
  | plain absent =>
    unfold dropHexMark
    split
    next rest => exact absurd (List.prefix_append ['0', 'x'] rest) (absent _ (by decide))
    next rest => exact absurd (List.prefix_append ['0', 'X'] rest) (absent _ (by decide))
    next => rfl

/-- Of a text only what is to be digits counts. -/
theorem hexBits?_of_digitsIn (here : DigitsIn s digits) :
    hexBits? s = ((Numeral.digits? 16 digits).filter (· ≤ UInt64.size - 1)).map UInt64.ofNat := by
  obtain ⟨trimmed, number, isTrimmed, unmarked, unsigned⟩ := here
  rw [hexBits?, isTrimmed.trim_eq, dropHexMark_of_unmarked unmarked,
    Numeral.unsignedUpTo?_of_unmarked unsigned, Numeral.digitsUpTo?_eq (by decide)]
  exact Option.map_eq_bind.symm

theorem hexBits?_eq_some_of_digitsIn (here : DigitsIn s digits) :
    hexBits? s = some n ↔ Hex.Spells digits n.toNat := by
  rw [hexBits?_of_digitsIn here, Option.map_eq_some_iff, ← Numeral.digits?_eq_some_iff]
  constructor
  · intro read
    obtain ⟨m, within, rfl⟩ := read
    obtain ⟨read, small⟩ := Option.filter_eq_some_iff.1 within
    have low : m < UInt64.size := Nat.lt_of_le_pred (by decide) (by simpa using small)
    rw [read, UInt64.toNat_ofNat_of_lt' low]
  · intro read
    have small : n.toNat ≤ UInt64.size - 1 := Nat.le_pred_of_lt n.toNat_lt
    exact ⟨n.toNat, Option.filter_eq_some_iff.2 ⟨read, by simpa using small⟩, UInt64.ofNat_toNat⟩

/-- No mark is made of digits alone. -/
theorem exists_foreign_of_mem_hexMarks :
    ∀ mark ∈ hexMarks, ∃ c ∈ mark, ∀ d, ¬Hex.IsDigit c d := by
  intro mark mem
  rcases List.mem_cons.1 mem with lower | mem
  · rw [lower]
    exact ⟨'x', by decide, Numeral.digit?_eq_none_iff.1 (by decide)⟩
  · rw [List.mem_singleton.1 mem]
    exact ⟨'X', by decide, Numeral.digit?_eq_none_iff.1 (by decide)⟩

/-- What cannot be read is what spells no number, or none below 2 ^ 64. -/
theorem unreadable_iff : Unreadable digits ↔ ∀ m, Hex.Spells digits m → 2 ^ 64 ≤ m := by
  constructor
  · intro unreadable m spelled
    have digit : ∀ c ∈ digits, ¬∀ d, ¬Hex.IsDigit c d := by
      intro c mem isForeign
      obtain ⟨d, isDigit⟩ := spelled.isDigit mem
      exact isForeign d isDigit
    cases unreadable with
    | empty => exact absurd rfl spelled.1
    | minus rest =>
      exact absurd (Numeral.digit?_eq_none_iff.1 (by decide)) (digit '-' List.mem_cons_self)
    | @marked mark mem rest =>
      obtain ⟨c, here, isForeign⟩ := exists_foreign_of_mem_hexMarks mark mem
      exact absurd isForeign (digit c (List.mem_append_left rest here))
    | foreign mem isForeign => exact absurd isForeign (digit _ mem)
    | large other large => rwa [spelled.unique other]
  · intro beyond
    cases read : Numeral.digits? 16 digits with
    | some m =>
      have spelled := Numeral.digits?_eq_some_iff.1 read
      exact .large spelled (beyond m spelled)
    | none =>
      rcases Numeral.digits?_eq_none_iff.1 read with nothing | ⟨c, mem, isForeign⟩
      · rw [nothing]
        exact .empty
      · exact .foreign mem isForeign

theorem hexBits?_eq_none_of_digitsIn (here : DigitsIn s digits) :
    hexBits? s = none ↔ Unreadable digits := by
  rw [unreadable_iff, Option.eq_none_iff_forall_ne_some]
  constructor
  · intro unread m spelled
    by_contra small
    have low : m < UInt64.size := Nat.lt_of_not_le small
    apply unread (UInt64.ofNat m)
    rw [hexBits?_eq_some_of_digitsIn here, UInt64.toNat_ofNat_of_lt' low]
    exact spelled
  · intro beyond n read
    have large := beyond n.toNat ((hexBits?_eq_some_of_digitsIn here).1 read)
    exact absurd n.toNat_lt (Nat.not_lt.2 large)

theorem hexBits?_eq_some_iff :
    hexBits? s = some n ↔ ∃ digits, DigitsIn s digits ∧ Hex.Spells digits n.toNat :=
  iff_exists_digitsIn fun _ => hexBits?_eq_some_of_digitsIn

theorem hexBits?_eq_none_iff :
    hexBits? s = none ↔ ∃ digits, DigitsIn s digits ∧ Unreadable digits :=
  iff_exists_digitsIn fun _ => hexBits?_eq_none_of_digitsIn

/-! ## Pointers -/

/-- The digits of a marked text in lower case are those behind the mark. -/
theorem digitsIn_marked (lower : digits ⊆ Hex.lowerDigits) :
    DigitsIn ("0x" ++ String.ofList digits) digits := by
  have mark : "0x".toList = ['0', 'x'] := rfl
  have text : ("0x" ++ String.ofList digits).toList = '0' :: 'x' :: digits := by
    rw [String.toList_append, mark, String.toList_ofList, List.cons_append, List.singleton_append]
  have solid : ∀ c ∈ '0' :: 'x' :: digits, isBlank c = false := by
    have none : ∀ c ∈ '0' :: 'x' :: Hex.lowerDigits, isBlank c = false := by
      simp [Hex.lowerDigits, isBlank]
    intro c mem
    exact none c (List.cons_subset_cons _ (List.cons_subset_cons _ lower) mem)
  have unsigned : ∀ mark ∈ [['+']], ¬mark <+: digits := by
    intro mark mem front
    rw [List.mem_singleton.1 mem] at front
    exact absurd (lower (front.subset List.mem_cons_self)) (by decide)
  have known : ['0', 'x'] ∈ hexMarks := by decide
  refine ⟨_, digits, ?_, .marked known, .plain unsigned⟩
  rw [isTrimmed_iff, text]
  exact trim_of_not_blank solid

/-- A number is read from its form at any width. -/
theorem hexBits?_of_isPadded {width : Nat} (isPadded : Hex.IsPadded width n.toNat digits) :
    hexBits? ("0x" ++ String.ofList digits) = some n :=
  hexBits?_eq_some_iff.2 ⟨digits, digitsIn_marked isPadded.lower, isPadded.spells⟩

/-- The text of a pointer is its mark and the form of its number at the width. -/
theorem exists_isPadded_pointerText {width : Nat} (wide : 0 < width) (m : Nat) :
    ∃ digits, Hex.IsPadded width m digits ∧
      Converter.pointerText width m = "0x" ++ String.ofList digits := by
  have padded := Hex.isPadded_paddedDigits width m
  rw [Nat.max_eq_left wide] at padded
  exact ⟨_, padded, rfl⟩

/-- The text of a pointer spells its number. -/
theorem hexBits?_pointerText {width m : Nat} (wide : 0 < width) (small : m < UInt64.size) :
    hexBits? (Converter.pointerText width m) = some (UInt64.ofNat m) := by
  obtain ⟨digits, isPadded, text⟩ := exists_isPadded_pointerText wide m
  rw [← UInt64.toNat_ofNat_of_lt' small] at isPadded
  rw [text, hexBits?_of_isPadded isPadded]

end Value

/-! ## Constants and arguments -/

/-- A constant of a flag table is the number of an argument with the same value, whatever the
conversion of the argument. -/
theorem flagBits?_apply {raw : Bson} {n : UInt64} (constant : raw.flagConstant? = some n)
    (converter : Converter) : (converter.apply raw).flagBits? = some n := by
  cases raw with
  | int32 i =>
    cases constant
    cases converter with
    | default => simp [Converter.apply, Converter.convertDefault, Value.flagBits?]
    | pointer =>
      have small : i.toUInt32.toNat < UInt64.size := by
        have := i.toUInt32.toNat_lt
        simp only [UInt64.size]
        omega
      rw [Converter.apply, Value.flagBits?, Value.hexBits?_pointerText (by decide) small]
      simp
  | int64 i =>
    cases constant
    cases converter with
    | default => rfl
    | pointer =>
      rw [Converter.apply, Value.flagBits?,
        Value.hexBits?_pointerText (by decide) i.toUInt64.toNat_lt, UInt64.ofNat_toNat]
  | _ => cases constant

/-- Values with different constants are different arguments, whatever the conversion. -/
theorem apply_injective {α : Type} {wire : α → Bson} {constant : α → UInt64}
    (injective : constant.Injective) (constants : ∀ a, (wire a).flagConstant? = some (constant a))
    (converter : Converter) : Function.Injective fun a => converter.apply (wire a) := by
  intro a b same
  have bits := congrArg Value.flagBits? same
  simp only [flagBits?_apply (constants _) converter] at bits
  exact injective (Option.some.inj bits)

namespace Value

/-- A text has the number that its digits spell, and none exactly if they spell none of 64 bits.
The form of a number at a width, behind its mark, is one text and has this number again. A pointer
becomes such a text, of eight digits or of sixteen, and no other pointer of its width becomes the
same. -/
theorem texts_spell_numbers :
    (∀ (s : String) (n : UInt64), (text s).flagBits? = some n ↔
      ∃ digits, DigitsIn s digits ∧ Hex.Spells digits n.toNat) ∧
    (∀ s : String, (text s).flagBits? = none ↔
      ∃ digits, DigitsIn s digits ∧ Unreadable digits) ∧
    (∀ (n : UInt64) (width : Nat), ∃ digits,
      (∀ others, Hex.IsPadded width n.toNat others ↔ others = digits) ∧
      (text ("0x" ++ String.ofList digits)).flagBits? = some n) ∧
    (∀ n : Int32, ∃ digits, Hex.IsPadded 8 n.toUInt32.toNat digits ∧
      Converter.pointer.apply (.int32 n) = text ("0x" ++ String.ofList digits) ∧
      (Converter.pointer.apply (.int32 n)).flagBits? = some n.toUInt32.toUInt64) ∧
    (∀ n : Int64, ∃ digits, Hex.IsPadded 16 n.toUInt64.toNat digits ∧
      Converter.pointer.apply (.int64 n) = text ("0x" ++ String.ofList digits) ∧
      (Converter.pointer.apply (.int64 n)).flagBits? = some n.toUInt64) ∧
    (Function.Injective fun n => Converter.pointer.apply (.int32 n)) ∧
    Function.Injective fun n => Converter.pointer.apply (.int64 n) := by
  refine ⟨fun s n => hexBits?_eq_some_iff, fun s => hexBits?_eq_none_iff, ?_, ?_, ?_, ?_, ?_⟩
  · intro n width
    exact ⟨_, fun others => Hex.isPadded_iff, hexBits?_of_isPadded (Hex.isPadded_paddedDigits _ _)⟩
  · intro n
    have wide : 0 < 8 := by decide
    obtain ⟨digits, isPadded, pointer⟩ := exists_isPadded_pointerText wide n.toUInt32.toNat
    exact ⟨digits, isPadded, congrArg text pointer, flagBits?_apply rfl .pointer⟩
  · intro n
    have wide : 0 < 16 := by decide
    obtain ⟨digits, isPadded, pointer⟩ := exists_isPadded_pointerText wide n.toUInt64.toNat
    exact ⟨digits, isPadded, congrArg text pointer, flagBits?_apply rfl .pointer⟩
  · have injective : Function.Injective fun n : Int32 => n.toUInt32.toUInt64 := by
      intro m n same
      exact Function.LeftInverse.injective Int32.toInt32_toUInt32 (UInt32.toUInt64_inj.1 same)
    exact apply_injective injective (fun _ => rfl) _
  · exact apply_injective (Function.LeftInverse.injective Int64.toInt64_toUInt64) (fun _ => rfl) _

/-- The largest number with all that may stand around its digits, and the next one. -/
example : (text "\t 0X+0fFffffffffffffff\n").flagBits? = some 0xffffffffffffffff ∧
    (text "0x10000000000000000").flagBits? = none := by decide +kernel

end Value

end CallTrace
