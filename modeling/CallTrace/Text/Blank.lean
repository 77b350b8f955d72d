/-!
White space in the sense of the Unicode property White_Space, and text without it at both ends.
`trim_eq` says what trimming removes: a blank front and a blank back, and nothing else.
-/

namespace CallTrace

/-- The characters of the Unicode property White_Space. -/
def isBlank (c : Char) : Bool :=
  let n := c.toNat
  (9 ≤ n && n ≤ 13) || n == 0x20 || n == 0x85 || n == 0xA0 || n == 0x1680
    || (0x2000 ≤ n && n ≤ 0x200A) || n == 0x2028 || n == 0x2029 || n == 0x202F || n == 0x205F
    || n == 0x3000

/-- The characters left when blanks are removed from the end. -/
def trimEnd (cs : List Char) : List Char := (cs.reverse.dropWhile isBlank).reverse

/-- The characters left when blanks are removed from both ends. -/
def trim (cs : List Char) : List Char := trimEnd (cs.dropWhile isBlank)

theorem trimEnd_append_blank (cs : List Char) :
    ∃ back, cs = trimEnd cs ++ back ∧ ∀ c ∈ back, isBlank c := by
  refine ⟨(cs.reverse.takeWhile isBlank).reverse, ?_, fun c hc => ?_⟩
  · rw [trimEnd, ← List.reverse_append, List.takeWhile_append_dropWhile, List.reverse_reverse]
  · exact List.all_eq_true.1 List.all_takeWhile c (List.mem_reverse.1 hc)

theorem trim_eq (cs : List Char) :
    ∃ front back, cs = front ++ trim cs ++ back ∧
      (∀ c ∈ front, isBlank c) ∧ (∀ c ∈ back, isBlank c) := by
  obtain ⟨back, eq, blank⟩ := trimEnd_append_blank (cs.dropWhile isBlank)
  have front : ∀ c ∈ cs.takeWhile isBlank, isBlank c :=
    fun c hc => List.all_eq_true.1 List.all_takeWhile c hc
  refine ⟨cs.takeWhile isBlank, back, ?_, front, blank⟩
  rw [List.append_assoc, trim, ← eq, List.takeWhile_append_dropWhile]

/-- A text without blanks at its ends. -/
def trimText (s : String) : String := String.ofList (trim s.toList)

end CallTrace
