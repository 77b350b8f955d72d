import CallTrace.Proofs.Bytes.Checksum
import CallTrace.Text.Numeral
import Mathlib.Data.List.Forall2
import Mathlib.Data.Nat.Digits.Lemmas

/-!
Hexadecimal numbers in text, said without the functions that read and write them. `Hex.Spells` takes
the value of a digit from its place among the sixteen of its case, and the number from the values of
all digits; `Hex.IsPadded` is the lower-case form of a number at a width.
`Numeral.digits?_eq_some_iff` says that reading finds the number that is spelled and no other, and
`Hex.isPadded_iff` that writing gives the one text of a number at a width.
-/

namespace CallTrace

namespace Hex

/-! ## The rule -/

/-- The upper-case digits. -/
def upperDigits : List Char :=
  ['0', '1', '2', '3', '4', '5', '6', '7', '8', '9', 'A', 'B', 'C', 'D', 'E', 'F']

/-- The value of a digit of either case is its place among the digits of its case. -/
def IsDigit (c : Char) (d : Nat) : Prop :=
  lowerDigits[d]? = some c ∨ upperDigits[d]? = some c

instance (c : Char) (d : Nat) : Decidable (IsDigit c d) :=
  inferInstanceAs (Decidable (_ ∨ _))

/-- One or more digits, the most significant first, and the number that they spell. -/
def Spells (digits : List Char) (n : Nat) : Prop :=
  digits ≠ [] ∧ ∃ values, List.Forall₂ IsDigit digits values ∧ Nat.ofDigits 16 values.reverse = n

/-- A number in lower-case digits, as many as the width asks for, or more if it takes more. It takes
at least one. -/
structure IsPadded (width n : Nat) (digits : List Char) : Prop where
  lower : digits ⊆ lowerDigits
  spells : Spells digits n
  length : digits.length = max (max width 1) (Nat.digits 16 n).length

/-! ## Values of digits -/

variable {c : Char} {d e : Nat}

theorem IsDigit.lt (isDigit : IsDigit c d) : d < 16 := by
  rcases isDigit with place | place
  · exact (List.getElem?_eq_some_iff.1 place).1
  · exact (List.getElem?_eq_some_iff.1 place).1

theorem digitValue?_eq_some_iff : digitValue? c = some d ↔ IsDigit c d := by
  constructor
  · intro value
    -- Only characters below 128 have values, and for each of these the table is looked up.
    have ascii : c.toNat < 128 := by
      unfold digitValue? at value
      split at value
      next range => exact Nat.lt_of_le_of_lt range.2 (by decide)
      split at value
      next range => exact Nat.lt_of_le_of_lt range.2 (by decide)
      split at value
      next range => exact Nat.lt_of_le_of_lt range.2 (by decide)
      cases value
    have table : ∀ n ∈ List.range 128, ∀ d ∈ digitValue? (Char.ofNat n),
        IsDigit (Char.ofNat n) d := by decide +kernel
    have found := table c.toNat (List.mem_range.2 ascii) d
    rw [Char.ofNat_toNat] at found
    exact found value
  · intro isDigit
    have table : ∀ d ∈ List.range 16, lowerDigits[d]?.bind digitValue? = some d ∧
        upperDigits[d]?.bind digitValue? = some d := by decide
    obtain ⟨lower, upper⟩ := table d (List.mem_range.2 isDigit.lt)
    rcases isDigit with place | place
    · rw [← lower, place, Option.bind_some]
    · rw [← upper, place, Option.bind_some]

theorem IsDigit.unique (first : IsDigit c d) (second : IsDigit c e) : d = e := by
  rw [← digitValue?_eq_some_iff] at first second
  exact Option.some.inj (first.symm.trans second)

theorem getElem?_lowerDigits (small : d < 16) : lowerDigits[d]? = some (digit d) := by
  have table : ∀ d ∈ List.range 16, lowerDigits[d]? = some (digit d) := by decide
  exact table d (List.mem_range.2 small)

theorem isDigit_digit (small : d < 16) : IsDigit (digit d) d :=
  .inl (getElem?_lowerDigits small)

/-- A digit in lower case is the one of its value. -/
theorem IsDigit.eq_digit (isDigit : IsDigit c d) (lower : c ∈ lowerDigits) : c = digit d := by
  obtain ⟨place, here⟩ := List.getElem?_of_mem lower
  have same : place = d := IsDigit.unique (.inl here) isDigit
  rw [same, getElem?_lowerDigits isDigit.lt] at here
  exact (Option.some.inj here).symm

end Hex

namespace Numeral

open Hex

variable {c : Char} {acc d n : Nat} {cs : List Char}

theorem digit?_eq_some_iff : digit? 16 c = some d ↔ IsDigit c d := by
  rw [digit?, Option.filter_eq_some_iff, digitValue?_eq_some_iff]
  constructor
  · intro found
    exact found.1
  · intro isDigit
    exact ⟨isDigit, by simpa using isDigit.lt⟩

theorem digit?_eq_none_iff : digit? 16 c = none ↔ ∀ d, ¬IsDigit c d := by
  rw [Option.eq_none_iff_forall_ne_some]
  exact forall_congr' fun d => not_congr digit?_eq_some_iff

/-! ## Numbers of digits -/

theorem digitsFrom?_eq_some_iff : digitsFrom? 16 acc cs = some n ↔
    ∃ values, List.Forall₂ IsDigit cs values ∧ values.foldl (fun m d => m * 16 + d) acc = n := by
  induction cs generalizing acc with
  | nil => simp [digitsFrom?]
  | cons c rest ih =>
    rw [digitsFrom?, Option.bind_eq_bind, Option.bind_eq_some_iff]
    constructor
    · intro read
      obtain ⟨d, first, later⟩ := read
      obtain ⟨values, isDigit, number⟩ := ih.1 later
      exact ⟨d :: values, .cons (digit?_eq_some_iff.1 first) isDigit, number⟩
    · intro spelled
      obtain ⟨values, isDigit, number⟩ := spelled
      cases isDigit with
      | cons first isDigit =>
        exact ⟨_, digit?_eq_some_iff.2 first, ih.2 ⟨_, isDigit, number⟩⟩

theorem foldl_eq_ofDigits (values : List Nat) :
    values.foldl (fun m d => m * 16 + d) 0 = Nat.ofDigits 16 values.reverse := by
  rw [Nat.ofDigits_eq_foldr, List.foldr_reverse]
  congr
  funext m d
  rw [Nat.add_comm, Nat.mul_comm]
  rfl

/-- The number that is read is the number that is spelled. -/
theorem digits?_eq_some_iff : digits? 16 cs = some n ↔ Spells cs n := by
  cases cs with
  | nil => simp [digits?, Spells]
  | cons c rest =>
    change digitsFrom? 16 0 (c :: rest) = some n ↔ _
    rw [digitsFrom?_eq_some_iff, Spells]
    simp [foldl_eq_ofDigits]

theorem digitsFrom?_eq_none_iff :
    digitsFrom? 16 acc cs = none ↔ ∃ c ∈ cs, ∀ d, ¬IsDigit c d := by
  induction cs generalizing acc with
  | nil => simp [digitsFrom?]
  | cons c rest ih =>
    rw [digitsFrom?, List.exists_mem_cons_iff, ← digit?_eq_none_iff]
    cases first : digit? 16 c with
    | none => simp
    | some d => simpa using ih

/-- Nothing is read where there is no digit, or something else. -/
theorem digits?_eq_none_iff : digits? 16 cs = none ↔ cs = [] ∨ ∃ c ∈ cs, ∀ d, ¬IsDigit c d := by
  cases cs with
  | nil => simp [digits?]
  | cons c rest =>
    change digitsFrom? 16 0 (c :: rest) = none ↔ _
    rw [digitsFrom?_eq_none_iff, or_iff_right (List.cons_ne_nil c rest)]

end Numeral

namespace Hex

variable {width m n : Nat} {digits others : List Char}

theorem Spells.isDigit {c : Char} (spelled : Spells digits n) (mem : c ∈ digits) :
    ∃ d, IsDigit c d := by
  by_contra none
  have read := Numeral.digits?_eq_some_iff.2 spelled
  rw [Numeral.digits?_eq_none_iff.2 (.inr ⟨c, mem, not_exists.1 none⟩)] at read
  cases read

theorem Spells.unique (first : Spells digits m) (second : Spells digits n) : m = n := by
  rw [← Numeral.digits?_eq_some_iff] at first second
  exact Option.some.inj (first.symm.trans second)

/-! ## Numbers at a width -/

theorem digitsOf_eq (n : Nat) : digitsOf n = ((Nat.digits 16 n).map digit).reverse := by
  fun_induction digitsOf n with
  | case1 => simp
  | case2 n nonzero ih =>
    rw [Nat.digits_def' (by decide) (Nat.pos_of_ne_zero nonzero), List.map_cons, List.reverse_cons,
      ih]

/-- The digits of a number behind the zeros that fill its width. -/
def paddedDigits (width n : Nat) : List Char :=
  List.replicate (width - (digitsOf n).length) '0' ++ digitsOf n

theorem paddedDigits_eq (width n : Nat) :
    paddedDigits width n = ((Nat.digitsAppend 16 width n).map digit).reverse := by
  have zero : digit 0 = '0' := by decide
  rw [paddedDigits, digitsOf_eq, List.length_reverse, List.length_map, Nat.digitsAppend,
    List.map_append, List.reverse_append, List.map_replicate, zero, List.reverse_replicate]

theorem paddedDigits_subset (width n : Nat) : paddedDigits width n ⊆ lowerDigits := by
  intro c mem
  rw [paddedDigits_eq, List.mem_reverse] at mem
  obtain ⟨d, here, rfl⟩ := List.mem_map.1 mem
  exact digit_mem (Nat.lt_of_mem_digitsAppend (by decide) _ d here)

theorem length_paddedDigits (width n : Nat) :
    (paddedDigits width n).length = max width (Nat.digits 16 n).length := by
  rw [paddedDigits_eq, List.length_reverse, List.length_map, Nat.digitsAppend, List.length_append,
    List.length_replicate]
  omega

/-- Zeros in front do not count, but a number without digits is none. -/
theorem spells_paddedDigits (wide : 0 < width) (n : Nat) : Spells (paddedDigits width n) n := by
  refine ⟨?_, (Nat.digitsAppend 16 width n).reverse, ?_, ?_⟩
  · apply List.ne_nil_of_length_pos
    rw [length_paddedDigits]
    omega
  · rw [paddedDigits_eq, List.forall₂_reverse_iff, List.forall₂_map_left_iff, List.forall₂_same]
    intro d here
    exact isDigit_digit (Nat.lt_of_mem_digitsAppend (by decide) _ d here)
  · rw [List.reverse_reverse, Nat.digitsAppend, Nat.ofDigits_append_replicate_zero,
      Nat.ofDigits_digits]

theorem isPadded_paddedDigits (width n : Nat) :
    IsPadded width n (paddedDigits (max width 1) n) where
  lower := paddedDigits_subset _ n
  spells := spells_paddedDigits (Nat.lt_of_lt_of_le Nat.one_pos (Nat.le_max_right width 1)) n
  length := length_paddedDigits _ n

theorem eq_map_digit {values : List Nat} (isDigit : List.Forall₂ IsDigit digits values)
    (lower : digits ⊆ lowerDigits) : digits = values.map digit := by
  induction isDigit with
  | nil => rfl
  | cons first _ ih =>
    rw [List.cons_subset] at lower
    rw [List.map_cons, ← first.eq_digit lower.1, ← ih lower.2]

theorem lt_of_mem_values {values : List Nat} (isDigit : List.Forall₂ IsDigit digits values) :
    ∀ d ∈ values, d < 16 := by
  induction isDigit with
  | nil => exact nofun
  | cons first _ ih => exact List.forall_mem_cons.2 ⟨first.lt, ih⟩

theorem IsPadded.unique (first : IsPadded width n digits) (second : IsPadded width n others) :
    digits = others := by
  obtain ⟨-, values, isDigit, number⟩ := first.spells
  obtain ⟨-, values', isDigit', number'⟩ := second.spells
  have long : values.reverse.length = values'.reverse.length := by
    rw [List.length_reverse, List.length_reverse, ← isDigit.length_eq, ← isDigit'.length_eq,
      first.length, second.length]
  have same : values.reverse = values'.reverse := by
    apply Nat.ofDigits_inj_of_len_eq (b := 16) (by decide) long
    · intro d mem
      exact lt_of_mem_values isDigit d (List.mem_reverse.1 mem)
    · intro d mem
      exact lt_of_mem_values isDigit' d (List.mem_reverse.1 mem)
    · rw [number, number']
  rw [eq_map_digit isDigit first.lower, eq_map_digit isDigit' second.lower,
    List.reverse_injective same]

/-- A number has one form at a width, and it is the one that is written. -/
theorem isPadded_iff : IsPadded width n digits ↔ digits = paddedDigits (max width 1) n := by
  constructor
  · intro isPadded
    exact isPadded.unique (isPadded_paddedDigits width n)
  · intro same
    rw [same]
    exact isPadded_paddedDigits width n

end Hex

end CallTrace
