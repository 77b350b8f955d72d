/-!
Finite maps as lists of entries in strictly increasing order of their keys. Two maps with the same
look-ups are equal (`ext_get?`), and `ofList` of a map's entries is the map again
(`ofList_toList`), so a map can be written down and read back.
-/

namespace CallTrace

/-- Put an entry at its place in a sorted list, instead of one with the same key. -/
def insertSorted {κ ν : Type} [Ord κ] (k : κ) (v : ν) : List (κ × ν) → List (κ × ν)
  | [] => [(k, v)]
  | (k', v') :: rest =>
    match compare k k' with
    | .lt => (k, v) :: (k', v') :: rest
    | .eq => (k, v) :: rest
    | .gt => (k', v') :: insertSorted k v rest

/-- The value at a key in a list of entries; the first, if there are several. -/
def lookup? {κ ν : Type} [Ord κ] (k : κ) : List (κ × ν) → Option ν
  | [] => none
  | (k', v) :: rest => if compare k k' = .eq then some v else lookup? k rest

/-- A finite map: entries in strictly increasing order of their keys. -/
structure SortedMap (κ ν : Type) [Ord κ] where
  toList : List (κ × ν)
  sorted : toList.Pairwise fun a b => compare a.1 b.1 = .lt

section

variable {κ ν : Type} [Ord κ]

theorem mem_insertSorted {k : κ} {v : ν} {e : κ × ν} {es : List (κ × ν)}
    (h : e ∈ insertSorted k v es) : e = (k, v) ∨ e ∈ es := by
  induction es with
  | nil => simpa [insertSorted] using h
  | cons d rest ih =>
    obtain ⟨k', v'⟩ := d
    unfold insertSorted at h
    split at h
    · simpa using h
    · simp only [List.mem_cons] at h ⊢
      exact h.imp id Or.inr
    · simp only [List.mem_cons] at h ⊢
      rcases h with h | h
      · exact .inr (.inl h)
      · exact (ih h).imp id Or.inr

theorem pairwise_insertSorted [Std.TransOrd κ] (k : κ) (v : ν) {es : List (κ × ν)}
    (h : es.Pairwise fun a b => compare a.1 b.1 = .lt) :
    (insertSorted k v es).Pairwise fun a b => compare a.1 b.1 = .lt := by
  induction es with
  | nil => simp [insertSorted]
  | cons d rest ih =>
    obtain ⟨k', v'⟩ := d
    have tail := List.Pairwise.of_cons h
    have head : ∀ e ∈ rest, compare k' e.1 = .lt := fun e he => List.rel_of_pairwise_cons h he
    unfold insertSorted
    split
    · next lt =>
      refine List.Pairwise.cons (fun e he => ?_) h
      rcases List.mem_cons.1 he with rfl | he
      · exact lt
      · exact Std.TransCmp.lt_trans lt (head e he)
    · next eq =>
      refine List.Pairwise.cons (fun e he => ?_) tail
      exact Std.TransCmp.lt_of_eq_of_lt eq (head e he)
    · next gt =>
      refine List.Pairwise.cons (fun e he => ?_) (ih tail)
      rcases mem_insertSorted he with rfl | he
      · exact Std.OrientedCmp.lt_of_gt gt
      · exact head e he

end

namespace SortedMap

variable {κ ν : Type} [Ord κ]

/-- The map without entries. -/
def empty : SortedMap κ ν := ⟨[], .nil⟩

instance : EmptyCollection (SortedMap κ ν) := ⟨empty⟩
instance : Inhabited (SortedMap κ ν) := ⟨empty⟩

/-- Give a key a value, instead of the one that it may have. -/
def insert [Std.TransOrd κ] (m : SortedMap κ ν) (k : κ) (v : ν) : SortedMap κ ν :=
  ⟨insertSorted k v m.toList, pairwise_insertSorted k v m.sorted⟩

/-- The value at a key. -/
def get? (m : SortedMap κ ν) (k : κ) : Option ν := lookup? k m.toList

/-- Whether a key has a value. -/
def contains (m : SortedMap κ ν) (k : κ) : Bool := (m.get? k).isSome

/-- The number of keys that have a value. -/
def size (m : SortedMap κ ν) : Nat := m.toList.length

/-- Whether no key has a value. -/
def isEmpty (m : SortedMap κ ν) : Bool := m.toList.isEmpty

/-- The map of a list of entries, of which the last for a key counts. -/
def ofList [Std.TransOrd κ] (entries : List (κ × ν)) : SortedMap κ ν :=
  entries.foldl (fun m e => m.insert e.1 e.2) empty

theorem eq_of_toList_eq {m m' : SortedMap κ ν} (h : m.toList = m'.toList) : m = m' := by
  cases m; cases m'; cases h; rfl

@[simp] theorem toList_empty : (empty : SortedMap κ ν).toList = [] := rfl

@[simp] theorem get?_empty (k : κ) : (empty : SortedMap κ ν).get? k = none := rfl

end SortedMap

section

variable {κ ν : Type} [Ord κ] [Std.LawfulEqOrd κ]

theorem lookup?_insertSorted_self (k : κ) (v : ν) (es : List (κ × ν)) :
    lookup? k (insertSorted k v es) = some v := by
  induction es with
  | nil => simp [insertSorted, lookup?]
  | cons d rest ih =>
    obtain ⟨k', v'⟩ := d
    unfold insertSorted
    split
    · simp [lookup?]
    · simp [lookup?]
    · next gt => simp [lookup?, gt, ih]

theorem lookup?_insertSorted_of_ne {k k' : κ} (ne : k' ≠ k) (v : ν) (es : List (κ × ν)) :
    lookup? k' (insertSorted k v es) = lookup? k' es := by
  have apart : compare k' k ≠ .eq := fun h => ne (Std.LawfulEqOrd.eq_of_compare h)
  induction es with
  | nil => simp [insertSorted, lookup?, apart]
  | cons d rest ih =>
    obtain ⟨l, w⟩ := d
    unfold insertSorted
    split
    · simp [lookup?, apart]
    · next eq =>
      have : k = l := Std.LawfulEqOrd.eq_of_compare eq
      subst this
      simp [lookup?, apart]
    · simp [lookup?, ih]

theorem lookup?_eq_some_of_mem {es : List (κ × ν)} {k : κ} {v : ν}
    (sorted : es.Pairwise fun a b => compare a.1 b.1 = .lt) (mem : (k, v) ∈ es) :
    lookup? k es = some v := by
  induction es with
  | nil => cases mem
  | cons d rest ih =>
    obtain ⟨k', v'⟩ := d
    rcases List.mem_cons.1 mem with h | h
    · cases h; simp [lookup?]
    · have lt : compare k' k = .lt := List.rel_of_pairwise_cons sorted h
      have gt : compare k k' ≠ .eq := by
        intro eq
        have : k = k' := Std.LawfulEqOrd.eq_of_compare eq
        subst this
        simp at lt
      simp [lookup?, gt, ih (List.Pairwise.of_cons sorted) h]

theorem mem_of_lookup?_eq_some {es : List (κ × ν)} {k : κ} {v : ν}
    (h : lookup? k es = some v) : (k, v) ∈ es := by
  induction es with
  | nil => cases h
  | cons d rest ih =>
    obtain ⟨k', v'⟩ := d
    unfold lookup? at h
    split at h
    · next eq =>
      have : k = k' := Std.LawfulEqOrd.eq_of_compare eq
      subst this
      cases h
      exact List.mem_cons_self
    · exact List.mem_cons_of_mem _ (ih h)

end

section

variable {κ ν : Type} [Ord κ] [Std.TransOrd κ]

/-- An entry whose key comes after all others goes to the end. -/
theorem insertSorted_of_all_lt {k : κ} {v : ν} {es : List (κ × ν)}
    (h : ∀ e ∈ es, compare e.1 k = .lt) : insertSorted k v es = es ++ [(k, v)] := by
  induction es with
  | nil => rfl
  | cons d rest ih =>
    obtain ⟨k', v'⟩ := d
    have gt : compare k k' = .gt := Std.OrientedCmp.gt_of_lt (h (k', v') List.mem_cons_self)
    simp [insertSorted, gt, ih fun e he => h e (List.mem_cons_of_mem _ he)]

theorem foldl_insertSorted_of_sorted {front back : List (κ × ν)}
    (sorted : (front ++ back).Pairwise fun a b => compare a.1 b.1 = .lt) :
    back.foldl (fun es e => insertSorted e.1 e.2 es) front = front ++ back := by
  induction back generalizing front with
  | nil => simp
  | cons e rest ih =>
    have before : ∀ d ∈ front, compare d.1 e.1 = .lt := fun d hd =>
      (List.pairwise_append.1 sorted).2.2 d hd e List.mem_cons_self
    rw [List.foldl_cons, insertSorted_of_all_lt before, ih (by simpa using sorted)]
    simp

/-- Two sorted lists with the same members are equal. -/
theorem eq_of_sorted_of_mem_iff {es fs : List (κ × ν)}
    (hes : es.Pairwise fun a b => compare a.1 b.1 = .lt)
    (hfs : fs.Pairwise fun a b => compare a.1 b.1 = .lt)
    (mem : ∀ e, e ∈ es ↔ e ∈ fs) : es = fs := by
  have irrefl : ∀ e : κ × ν, compare e.1 e.1 ≠ .lt := fun e h => by simp at h
  induction es generalizing fs with
  | nil =>
    cases fs with
    | nil => rfl
    | cons f rest => exact absurd ((mem f).2 List.mem_cons_self) (by simp)
  | cons e es ih =>
    cases fs with
    | nil => exact absurd ((mem e).1 List.mem_cons_self) (by simp)
    | cons f fs =>
      have firstE : ∀ d ∈ es, compare e.1 d.1 = .lt := fun d hd => List.rel_of_pairwise_cons hes hd
      have firstF : ∀ d ∈ fs, compare f.1 d.1 = .lt := fun d hd => List.rel_of_pairwise_cons hfs hd
      have same : e = f := by
        rcases List.mem_cons.1 ((mem e).1 List.mem_cons_self) with h | h
        · exact h
        · rcases List.mem_cons.1 ((mem f).2 List.mem_cons_self) with h' | h'
          · exact h'.symm
          · exact absurd (Std.TransCmp.lt_trans (firstF e h) (firstE f h')) (irrefl f)
      subst same
      congr 1
      refine ih (List.Pairwise.of_cons hes) (List.Pairwise.of_cons hfs) fun d => ?_
      constructor
      · intro hd
        rcases List.mem_cons.1 ((mem d).1 (List.mem_cons_of_mem _ hd)) with rfl | h
        · exact absurd (firstE d hd) (irrefl d)
        · exact h
      · intro hd
        rcases List.mem_cons.1 ((mem d).2 (List.mem_cons_of_mem _ hd)) with rfl | h
        · exact absurd (firstF d hd) (irrefl d)
        · exact h

end

namespace SortedMap

variable {κ ν : Type} [Ord κ] [Std.TransOrd κ]

theorem toList_ofList_eq (entries : List (κ × ν)) :
    (ofList entries).toList = entries.foldl (fun es e => insertSorted e.1 e.2 es) [] := by
  suffices ∀ m : SortedMap κ ν, (entries.foldl (fun m e => m.insert e.1 e.2) m).toList =
      entries.foldl (fun es e => insertSorted e.1 e.2 es) m.toList from this empty
  induction entries with
  | nil => intro m; rfl
  | cons e rest ih => intro m; exact ih (m.insert e.1 e.2)

/-- A map is the map of its own entries. -/
theorem ofList_toList (m : SortedMap κ ν) : ofList m.toList = m := by
  apply eq_of_toList_eq
  rw [toList_ofList_eq]
  exact foldl_insertSorted_of_sorted (by simpa using m.sorted)

variable [Std.LawfulEqOrd κ]

omit [Std.TransOrd κ] in
theorem mem_toList_iff_get? (m : SortedMap κ ν) (k : κ) (v : ν) :
    (k, v) ∈ m.toList ↔ m.get? k = some v :=
  ⟨lookup?_eq_some_of_mem m.sorted, mem_of_lookup?_eq_some⟩

@[simp] theorem get?_insert_self (m : SortedMap κ ν) (k : κ) (v : ν) :
    (m.insert k v).get? k = some v := lookup?_insertSorted_self k v m.toList

theorem get?_insert_of_ne (m : SortedMap κ ν) {k k' : κ} (ne : k' ≠ k) (v : ν) :
    (m.insert k v).get? k' = m.get? k' := lookup?_insertSorted_of_ne ne v m.toList

theorem get?_insert [DecidableEq κ] (m : SortedMap κ ν) (k k' : κ) (v : ν) :
    (m.insert k v).get? k' = if k' = k then some v else m.get? k' := by
  split
  · next h => subst h; exact m.get?_insert_self k' v
  · next h => exact m.get?_insert_of_ne h v

theorem get?_insert_eq_or [DecidableEq κ] (m : SortedMap κ ν) (k k' : κ) (v : ν) :
    (m.insert k v).get? k' = (if k = k' then some v else none).or (m.get? k') := by
  rw [get?_insert]
  by_cases here : k = k'
  · rw [if_pos here, if_pos here.symm]
    rfl
  · rw [if_neg here, if_neg (Ne.symm here)]
    rfl

/-- Two maps with the same look-ups are equal. -/
theorem ext_get? {m m' : SortedMap κ ν} (h : ∀ k, m.get? k = m'.get? k) : m = m' :=
  eq_of_toList_eq <| eq_of_sorted_of_mem_iff m.sorted m'.sorted fun e => by
    rw [← Prod.eta e, mem_toList_iff_get?, mem_toList_iff_get?, h]

/-- An entry that is there already changes nothing. -/
theorem insert_eq_self {m : SortedMap κ ν} {k : κ} {v : ν} (here : m.get? k = some v) :
    m.insert k v = m := by
  apply ext_get?
  intro k'
  by_cases same : k' = k
  · subst same
    rw [get?_insert_self, here]
  · rw [get?_insert_of_ne m same]

end SortedMap

end CallTrace
