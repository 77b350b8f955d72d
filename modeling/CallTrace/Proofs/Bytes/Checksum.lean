import CallTrace.BufferDirectory

/-!
The names of dumps. Whatever the dump, its name has forty lower-case hexadecimal digits
(`isName_checksum`), so it is the name of a file in the directory itself, and neither that of the
directory above nor a path to another place (`IsName.path`).
-/

namespace CallTrace

namespace Hex

/-- The lower-case digits. -/
def lowerDigits : List Char :=
  ['0', '1', '2', '3', '4', '5', '6', '7', '8', '9', 'a', 'b', 'c', 'd', 'e', 'f']

theorem digit_mem {n : Nat} (small : n < 16) : digit n ∈ lowerDigits := by
  have all : ∀ m ∈ List.range 16, digit m ∈ lowerDigits := by decide
  exact all n (List.mem_range.2 small)

theorem chars_subset (bytes : Bytes) : chars bytes ⊆ lowerDigits := by
  intro c mem
  rcases List.mem_flatMap.1 mem with ⟨b, -, here⟩
  have bound := b.toNat_lt
  rcases List.mem_cons.1 here with rfl | here
  · exact digit_mem (by omega)
  · rw [List.mem_singleton.1 here]
    exact digit_mem (by omega)

theorem length_chars (bytes : Bytes) : (chars bytes).length = 2 * bytes.length := by
  induction bytes with
  | nil => rfl
  | cons b later ih =>
    change ((_ :: _ :: chars later : List Char)).length = _
    rw [List.length_cons, List.length_cons, ih, List.length_cons]
    omega

end Hex

theorem length_checksum (payload : Bytes) : (checksum payload).toList.length = 40 := by
  rw [checksum, Hex.encode, String.toList_ofList, Hex.length_chars, Sha1.length_digest]

namespace BufferDirectory

/-- Whether a text may name a dump. -/
structure IsName (text : String) : Prop where
  digits : text.toList ⊆ Hex.lowerDigits
  length : text.toList.length = 40

theorem isName_checksum (payload : Bytes) : IsName (checksum payload) where
  digits := by
    rw [checksum, Hex.encode, String.toList_ofList]
    exact Hex.chars_subset _
  length := length_checksum payload

/-- The path of a dump has two parts, the directory and the name. -/
theorem IsName.path {text : String} (named : IsName text) :
    (path text).toList.splitOn '/' = [name.toList, text.toList] := by
  have flat : ∀ part ∈ [name.toList, text.toList], '/' ∉ part := by
    intro part mem
    rcases List.mem_cons.1 mem with rfl | mem
    · decide
    · rw [List.mem_singleton.1 mem]
      intro slash
      exact absurd (named.digits slash) (by decide)
  have joined : (BufferDirectory.path text).toList
      = ['/'].intercalate [name.toList, text.toList] := by
    rw [BufferDirectory.path, String.toList_append, String.toList_append, List.append_assoc,
      List.intercalate_cons_cons, List.intercalate_singleton]
    rfl
  rw [joined, List.splitOn_intercalate '/' flat (List.cons_ne_nil _ _)]

end BufferDirectory

end CallTrace
