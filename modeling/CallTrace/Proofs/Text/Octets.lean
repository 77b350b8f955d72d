import CallTrace.Text.Utf8

/-!
Which characters of a text its octets come from. An octet below 80 is the only octet of a character
of its own number (`Utf8.toNat_eq_of_mem`), so a text has such an octet just if it has that
character.
-/

namespace CallTrace.Utf8

theorem encode_eq_flatMap (s : String) : encode s = s.toList.flatMap String.utf8EncodeChar := by
  unfold encode
  have whole : s = String.ofList s.toList := by simp
  rw [whole, String.toByteArray_ofList]
  simp [List.utf8Encode]

theorem encode_append (s t : String) : encode (s ++ t) = encode s ++ encode t := by
  rw [encode_eq_flatMap, encode_eq_flatMap, encode_eq_flatMap, String.toList_append,
    List.flatMap_append]

/-- An octet below 80 is that of a character of its own number. -/
theorem toNat_eq_of_mem {c : Char} {b : UInt8} (mem : b ∈ String.utf8EncodeChar c)
    (low : b.toNat < 0x80) : c.toNat = b.toNat := by
  have bound : c.val.toNat < 0x110000 := by
    rcases c.valid with low | ⟨-, high⟩
    · exact Nat.lt_trans low (by decide)
    · exact high
  have octet : ∀ n : Nat, b = UInt8.ofNat n → b.toNat = n % 256 := by
    rintro n rfl
    exact UInt8.toNat_ofNat'
  change c.val.toNat = b.toNat
  unfold String.utf8EncodeChar at mem
  dsimp only at mem
  -- The octets of a longer form are all above 7F.
  split at mem
  · simp only [List.mem_singleton] at mem
    have := octet _ mem
    omega
  · split at mem
    · simp only [List.mem_cons, List.not_mem_nil, or_false] at mem
      rcases mem with mem | mem
      all_goals
        have := octet _ mem
        omega
    · split at mem
      all_goals simp only [List.mem_cons, List.not_mem_nil, or_false] at mem
      · rcases mem with mem | mem | mem
        all_goals
          have := octet _ mem
          omega
      · rcases mem with mem | mem | mem | mem
        all_goals
          have := octet _ mem
          omega

/-- What holds of all characters of a text holds of its octets below 80. -/
theorem exists_mem_of_mem_encode {s : String} {b : UInt8} (mem : b ∈ encode s)
    (low : b.toNat < 0x80) : ∃ c ∈ s.toList, c.toNat = b.toNat := by
  rw [encode_eq_flatMap] at mem
  rcases List.mem_flatMap.1 mem with ⟨c, here, mem⟩
  exact ⟨c, here, toNat_eq_of_mem mem low⟩

end CallTrace.Utf8
