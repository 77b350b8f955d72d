import CallTrace.Text.Blank

/-!
Text without blanks at its ends, said without the function that removes them: `IsTrimmed` splits a
text into blanks, what is left, and blanks again, where what is left neither begins nor ends with a
blank. `isTrimmed_iff` says that `trim` finds this part and that there is no other.
-/

namespace CallTrace

/-- Whether a text is another one without the blanks at its ends. -/
structure IsTrimmed (cs trimmed : List Char) : Prop where
  split : ∃ front back, cs = front ++ trimmed ++ back ∧ (∀ c ∈ front, isBlank c = true) ∧
    ∀ c ∈ back, isBlank c = true
  first : ∀ c ∈ trimmed.head?, isBlank c = false
  last : ∀ c ∈ trimmed.getLast?, isBlank c = false

/-- Blanks are dropped up to what does not begin with one. -/
theorem dropWhile_blank_append {front rest : List Char} (blank : ∀ c ∈ front, isBlank c = true)
    (first : ∀ c ∈ rest.head?, isBlank c = false) : (front ++ rest).dropWhile isBlank = rest := by
  rw [List.dropWhile_append_of_pos blank]
  cases rest with
  | nil => rfl
  | cons c later => exact List.dropWhile_cons_of_neg (by simp [first c rfl])

theorem trim_of_blank {cs : List Char} (blank : ∀ c ∈ cs, isBlank c = true) : trim cs = [] := by
  have none : (cs ++ []).dropWhile isBlank = [] := dropWhile_blank_append blank nofun
  rw [List.append_nil] at none
  rw [trim, none]
  rfl

theorem IsTrimmed.trim_eq {cs trimmed : List Char} (found : IsTrimmed cs trimmed) :
    trim cs = trimmed := by
  rcases found with ⟨⟨front, back, rfl, frontBlank, backBlank⟩, first, last⟩
  cases trimmed with
  | nil =>
    refine trim_of_blank fun c mem => ?_
    rw [List.append_nil, List.mem_append] at mem
    exact mem.elim (frontBlank c) (backBlank c)
  | cons c later =>
    have start : ∀ d ∈ (c :: later ++ back).head?, isBlank d = false := first
    rw [List.append_assoc, trim, dropWhile_blank_append frontBlank start, trimEnd,
      List.reverse_append, dropWhile_blank_append, List.reverse_reverse]
    · intro d mem
      exact backBlank d (List.mem_reverse.1 mem)
    · rw [List.head?_reverse]
      exact last

theorem isTrimmed_trim (cs : List Char) : IsTrimmed cs (trim cs) where
  split := CallTrace.trim_eq cs
  first := by
    rcases trimEnd_append_blank (cs.dropWhile isBlank) with ⟨back, split, -⟩
    intro c mem
    have here : (cs.dropWhile isBlank).head? = some c := by
      rw [split, List.head?_append, ← trim, Option.mem_def.1 mem, Option.some_or]
    have notBlank := List.head?_dropWhile_not isBlank cs
    rw [here] at notBlank
    simpa using notBlank
  last := by
    intro c mem
    rw [trim, trimEnd, List.getLast?_reverse] at mem
    have notBlank := List.head?_dropWhile_not isBlank (cs.dropWhile isBlank).reverse
    rw [Option.mem_def.1 mem] at notBlank
    simpa using notBlank

theorem isTrimmed_iff {cs trimmed : List Char} : IsTrimmed cs trimmed ↔ trim cs = trimmed := by
  constructor
  · exact IsTrimmed.trim_eq
  · rintro rfl
    exact isTrimmed_trim cs

/-- A text without blanks is left as it is. -/
theorem trim_of_not_blank {cs : List Char} (solid : ∀ c ∈ cs, isBlank c = false) :
    trim cs = cs := by
  refine IsTrimmed.trim_eq ⟨⟨[], [], ?_, nofun, nofun⟩, fun c mem => ?_, fun c mem => ?_⟩
  · rw [List.nil_append, List.append_nil]
  · exact solid c (List.mem_of_mem_head? mem)
  · exact solid c (List.mem_of_mem_getLast? mem)

end CallTrace
