import CallTrace.Bytes.Base64

/-!
Base64 text is read back. A text is made of six-bit values that spell its octets, and of what fills
the last group (`exists_values`); reading takes the two apart again (`decode?_encode`).
-/

namespace CallTrace.Base64

theorem symbolValue?_symbol {n : Nat} (small : n < 64) : symbolValue? (symbol n) = some n := by
  have all : ∀ m ∈ List.range 64, symbolValue? (symbol m) = some m := by decide
  exact all n (List.mem_range.mpr small)

theorem mapM_symbolValue? {values : List Nat} (small : ∀ n ∈ values, n < 64) :
    (values.map symbol).mapM symbolValue? = some values := by
  induction values with
  | nil => rfl
  | cons n rest ih =>
    rw [List.forall_mem_cons] at small
    simp [List.mapM_cons, symbolValue?_symbol small.1, ih small.2]

/-- What fills the last group behind so many values. -/
def Fills (count : Nat) (filling : List Char) : Prop :=
  filling = [] ∨ 2 ≤ count % 4 ∧ filling = List.replicate (4 - count % 4) '='

/-- An octet is the lowest eight bits of a number. -/
theorem ofNat_eq {n : Nat} {b : UInt8} (lowest : n % 256 = b.toNat) : UInt8.ofNat n = b := by
  rw [← UInt8.toNat_inj, UInt8.toNat_ofNat', lowest]

/-- The text of some octets is made of six-bit values that spell them, and of what fills the last
group. -/
theorem exists_values (bytes : Bytes) :
    ∃ values filling, chars bytes = values.map symbol ++ filling ∧ (∀ n ∈ values, n < 64) ∧
      Fills values.length filling ∧ octets? values = some bytes := by
  fun_induction chars bytes with
  | case1 => exact ⟨[], [], rfl, List.forall_mem_nil _, .inl rfl, rfl⟩
  | case2 a n =>
    have bound := a.toNat_lt
    refine ⟨[n / 64, n % 64], ['=', '='], rfl, ?_, .inr ⟨Nat.le_refl 2, rfl⟩, ?_⟩
    · intro m mem
      simp only [List.mem_cons, List.not_mem_nil, or_false] at mem
      omega
    · have whole : n / 64 * 64 + n % 64 = n := by omega
      have first : UInt8.ofNat (n / 16) = a := ofNat_eq (by omega)
      simp only [octets?, whole, first]
      rw [if_pos (by omega)]
  | case3 a b n =>
    have boundA := a.toNat_lt
    have boundB := b.toNat_lt
    refine ⟨[n / 4096, n / 64 % 64, n % 64], ['='], rfl, ?_, .inr ⟨Nat.le_succ 2, rfl⟩, ?_⟩
    · intro m mem
      simp only [List.mem_cons, List.not_mem_nil, or_false] at mem
      omega
    · have whole : (n / 4096 * 64 + n / 64 % 64) * 64 + n % 64 = n := by omega
      have first : UInt8.ofNat (n / 1024) = a := ofNat_eq (by omega)
      have second : UInt8.ofNat (n / 4) = b := ofNat_eq (by omega)
      simp only [octets?, whole, first, second]
      rw [if_pos (by omega)]
  | case4 a b c rest n ih =>
    obtain ⟨values, filling, text, small, fills, back⟩ := ih
    have boundA := a.toNat_lt
    have boundB := b.toNat_lt
    have boundC := c.toNat_lt
    refine ⟨n / 262144 :: n / 4096 % 64 :: n / 64 % 64 :: n % 64 :: values, filling, ?_, ?_, ?_, ?_⟩
    · rw [text]
      rfl
    · simp only [List.forall_mem_cons]
      exact ⟨by omega, by omega, by omega, by omega, small⟩
    · have group : (values.length + 4) % 4 = values.length % 4 := Nat.add_mod_right ..
      change filling = [] ∨ 2 ≤ (values.length + 4) % 4 ∧ _ = List.replicate (4 - (_ + 4) % 4) '='
      rwa [group]
    · have whole : ((n / 262144 * 64 + n / 4096 % 64) * 64 + n / 64 % 64) * 64 + n % 64 = n := by
        omega
      have first : UInt8.ofNat (n / 65536) = a := ofNat_eq (by omega)
      have second : UInt8.ofNat (n / 256) = b := ofNat_eq (by omega)
      have third : UInt8.ofNat n = c := ofNat_eq (by omega)
      simp only [octets?, whole, first, second, third, back, Option.map_some]

theorem symbol_ne_filling {n : Nat} (small : n < 64) : symbol n ≠ '=' := by
  intro same
  have value := symbolValue?_symbol small
  rw [same] at value
  cases value

/-- Octets are read back from their text. -/
theorem decode?_encode (bytes : Bytes) : decode? (encode bytes) = some bytes := by
  obtain ⟨values, filling, text, small, fills, back⟩ := exists_values bytes
  have symbols : ∀ c ∈ values.map symbol, decide (c ≠ '=') = true := by
    intro c mem
    obtain ⟨n, within, rfl⟩ := List.mem_map.1 mem
    exact decide_eq_true (symbol_ne_filling (small n within))
  obtain ⟨count, rfl⟩ : ∃ count, filling = List.replicate count '=' := by
    obtain none | ⟨-, eq⟩ := fills
    · exact ⟨0, none⟩
    · exact ⟨_, eq⟩
  have front : (List.replicate count '=').takeWhile (· ≠ '=') = [] := by simp
  have whole : (List.replicate count '=').dropWhile (· ≠ '=') = List.replicate count '=' := by simp
  unfold decode? encode
  rw [String.toList_ofList, text, List.takeWhile_append_of_pos symbols,
    List.dropWhile_append_of_pos symbols, front, whole, List.append_nil]
  dsimp only
  rw [if_pos, mapM_symbolValue? small, Option.bind_some, back]
  rw [List.length_map]
  refine ⟨by simp, fills.imp_right ?_⟩
  rintro ⟨two, eq⟩
  have length := congrArg List.length eq
  simp only [List.length_replicate] at length ⊢
  omega

end CallTrace.Base64
