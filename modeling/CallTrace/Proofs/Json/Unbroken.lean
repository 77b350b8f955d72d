import CallTrace.Json.Basic
import CallTrace.Proofs.Bytes.Checksum

/-!
The compact text of a JSON value is one line, whatever the texts in it. `unbroken_chars` says that
it has no character below the blank: those of texts and keys are escaped, and numbers, marks and
names have none.
-/

namespace CallTrace

/-- Whether a text has no character below the blank, so no line feed. -/
def Unbroken (cs : List Char) : Prop := ∀ c ∈ cs, 0x20 ≤ c.toNat

namespace Unbroken

variable {c : Char} {cs ds : List Char}

@[simp] theorem nil : Unbroken [] := nofun

@[simp] theorem cons_iff : Unbroken (c :: cs) ↔ 0x20 ≤ c.toNat ∧ Unbroken cs :=
  List.forall_mem_cons

@[simp] theorem append_iff : Unbroken (cs ++ ds) ↔ Unbroken cs ∧ Unbroken ds :=
  List.forall_mem_append

theorem of_subset (free : Unbroken ds) (part : cs ⊆ ds) : Unbroken cs :=
  fun c mem => free c (part mem)

theorem replicate (high : 0x20 ≤ c.toNat) (n : Nat) : Unbroken (List.replicate n c) := by
  intro d mem
  rw [List.eq_of_mem_replicate mem]
  exact high

end Unbroken

/-! ## Numbers -/

namespace Numeral

theorem unbroken_decimal (n : Nat) : Unbroken (decimal n) := by
  intro c mem
  have digit := Nat.isDigit_of_mem_toDigits (by decide) (by decide) mem
  rw [Char.isDigit, Bool.and_eq_true, decide_eq_true_iff] at digit
  exact Nat.le_trans (by decide) (UInt32.le_iff_toNat_le.1 digit.1)

end Numeral

namespace Layout

theorem unbroken_place {ds : List Char} (digits : Unbroken ds) (pointed : Bool) (k : Int) :
    Unbroken (place pointed ds k) := by
  have zeros (n : Nat) : Unbroken (List.replicate n '0') := .replicate (by decide) n
  unfold place
  split
  · cases pointed <;> simp [digits, zeros]
  · have filled (n : Nat) : Unbroken (List.replicate n '0' ++ ds) := by simp [zeros, digits]
    simp only [Unbroken.append_iff, Unbroken.cons_iff]
    exact ⟨(filled _).of_subset (List.take_subset ..), by decide,
      (filled _).of_subset (List.drop_subset ..)⟩

theorem unbroken_exponential {ds : List Char} (digits : Unbroken ds) (plus : Bool) (e : Int) :
    Unbroken (exponential plus ds e) := by
  have power := Numeral.unbroken_decimal e.natAbs
  have sign : Unbroken (if e < 0 then ['-'] else if plus then ['+'] else []) := by
    split
    · simp
    · split <;> simp
  unfold exponential
  cases ds with
  | nil => simp [sign, power]
  | cons d later =>
    rw [Unbroken.cons_iff] at digits
    cases later with
    | nil => simp [digits.1, sign, power]
    | cons _ _ =>
      rw [Unbroken.cons_iff] at digits
      simp [digits.1, digits.2, sign, power]

theorem unbroken_finite (l : Layout) (n : Nat) (k : Int) : Unbroken (l.finite n k) := by
  have digits := Numeral.unbroken_decimal n
  unfold finite
  dsimp only
  split
  · exact unbroken_place digits _ _
  · split
    · exact unbroken_place digits _ _
    · exact unbroken_exponential digits _ _

theorem unbroken_text {l : Layout} (nan : Unbroken l.nan.toList)
    (infinity : Unbroken l.infinity.toList) (x : Binary64) : Unbroken (l.text x).toList := by
  unfold text
  split
  · exact nan
  · rw [String.toList_append, Unbroken.append_iff]
    refine ⟨?_, infinity⟩
    split <;> simp
  · rw [String.toList_ofList, Unbroken.append_iff]
    refine ⟨?_, unbroken_finite _ _ _⟩
    split <;> simp

end Layout

namespace Json

theorem unbroken_intChars (n : Int) : Unbroken (intChars n) := by
  have digits := Numeral.unbroken_decimal n.natAbs
  unfold intChars
  split
  · simp [digits]
  · exact digits

theorem unbroken_floatChars (x : Binary64) : Unbroken (floatChars x) := by
  unfold floatChars
  split
  · exact Layout.unbroken_text (by simp [Layout.json]) (by simp [Layout.json]) x
  · simp

/-! ## Texts -/

theorem unbroken_escape (c : Char) : Unbroken (escape c) := by
  have digit {n : Nat} (small : n < 16) : 0x20 ≤ (Hex.digit n).toNat := by
    have all : Unbroken Hex.lowerDigits := by simp [Hex.lowerDigits]
    exact all _ (Hex.digit_mem small)
  unfold escape
  -- Seven characters have escapes of their own; of the others, those below the blank have digits.
  iterate 7
    split
    · simp
  split
  next low =>
    have high : 0x20 ≤ (Hex.digit (c.toNat / 16)).toNat := digit (by omega)
    have last : 0x20 ≤ (Hex.digit (c.toNat % 16)).toNat := digit (by omega)
    simp [high, last]
  next bare => simpa using bare

theorem unbroken_quoted (s : String) : Unbroken (quoted s) := by
  have inner : Unbroken (s.toList.flatMap escape) := by
    intro c mem
    rcases List.mem_flatMap.1 mem with ⟨d, -, here⟩
    exact unbroken_escape d c here
  simp [quoted, inner]

/-! ## Values -/

theorem unbroken_separated {pieces : List (List Char)} (each : ∀ piece ∈ pieces, Unbroken piece) :
    Unbroken (separated pieces) := by
  fun_induction separated pieces with
  | case1 => exact .nil
  | case2 piece => exact each piece List.mem_cons_self
  | case3 piece later more ih =>
    rw [List.forall_mem_cons] at each
    simp [each.1, ih each.2]

mutual

/-- The compact text of a value has no character below the blank. -/
theorem unbroken_chars (j : Json) : Unbroken j.chars := by
  cases j with
  | null => simp [chars]
  | bool b => cases b <;> simp [chars]
  | int n => exact unbroken_intChars n
  | float x => exact unbroken_floatChars x
  | text s => exact unbroken_quoted s
  | array items => simp [chars, unbroken_separated (unbroken_itemsChars items)]
  | object members => simp [chars, unbroken_separated (unbroken_membersChars members)]

theorem unbroken_itemsChars (items : List Json) : ∀ piece ∈ itemsChars items, Unbroken piece := by
  match items with
  | [] => exact nofun
  | item :: later =>
    rw [itemsChars, List.forall_mem_cons]
    exact ⟨unbroken_chars item, unbroken_itemsChars later⟩

theorem unbroken_membersChars (members : List (String × Json)) :
    ∀ piece ∈ membersChars members, Unbroken piece := by
  match members with
  | [] => exact nofun
  | (key, value) :: later =>
    rw [membersChars, List.forall_mem_cons]
    exact ⟨by simp [unbroken_quoted, unbroken_chars value], unbroken_membersChars later⟩

end

end Json

end CallTrace
