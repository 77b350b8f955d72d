import CallTrace.Proofs.Frame.Grammar

/-!
What reading a frame does to any transport, whatever it fails with and however short its calls are.
`eq_encode_append_of_read` says that a body that was read is that of the frame at the front of the
bytes, and `pending_of_read_none` what is left where no frame follows.

Every call that serves bytes or fails has less to do behind it; only a call that serves nothing has
not, and a reader makes one such call at most (`budget_read`).
-/

namespace CallTrace

namespace Source

/-! ## Calls that are yet to come -/

/-- A transport after some more calls. -/
structure Later (s t : Source) : Prop where
  limit : t.limit = s.limit
  served : s.served ≤ t.served

theorem Later.refl (s : Source) : s.Later s := ⟨rfl, Nat.le_refl _⟩

theorem Later.trans {s t u : Source} (first : s.Later t) (second : t.Later u) : s.Later u :=
  ⟨second.limit.trans first.limit, Nat.le_trans first.served second.served⟩

theorem later_read (s : Source) (most : Nat) : s.Later (s.read most).2 := by
  unfold read
  split
  · exact ⟨rfl, Nat.le_add_right ..⟩
  · split
    · exact ⟨rfl, Nat.le_refl _⟩
    · exact ⟨rfl, Nat.le_add_right ..⟩

theorem later_fillFrom (s : Source) (want : Nat) (got : Array UInt8) :
    s.Later (s.fillFrom want got).2 := by
  fun_induction Source.fillFrom s want got with
  | case1 s got => exact .refl s
  | case2 s want got wanted front t outcome last =>
    have after := s.later_read want
    rwa [outcome] at after
  | case3 s want got wanted front t outcome more ih =>
    have after := s.later_read want
    rw [outcome] at after
    exact after.trans ih
  | case4 s want got wanted t outcome ih =>
    have after := s.later_read want
    rw [outcome] at after
    exact after.trans ih
  | case5 s want got wanted text t outcome =>
    have after := s.later_read want
    rwa [outcome] at after

theorem later_fill (s : Source) (want : Nat) : s.Later (s.fill want).2 :=
  s.later_fillFrom want #[]

/-- A call that is not cut down to nothing serves nothing only at the end. -/
theorem pending_of_read_nil {s t : Source} {most : Nat}
    (unstalled : ∀ call, s.limit call ≠ some 0) (wanted : 0 < most)
    (outcome : s.read most = (.ok [], t)) : t.pending = [] := by
  have nothing : ∀ room, 0 < room → (s.serve room).1 = [] → (s.serve room).2.pending = [] := by
    intro room wanted none
    have split := s.serve_append room
    rcases serve_eq_take unstalled wanted with ⟨n, positive, -, front⟩
    rw [none] at front split
    rw [← List.nil_append (s.serve room).2.pending, split]
    exact (List.take_eq_nil_iff.1 front.symm).resolve_left (by omega)
  unfold read at outcome
  split at outcome
  · cases serve : s.serve most with
    | mk front u =>
      have := nothing most wanted
      rw [serve] at outcome this
      cases outcome
      exact this rfl
  · next position failure later here =>
    split at outcome
    · cases outcome
    · cases serve : s.serve (min most (position - s.served)) with
      | mk front u =>
        have := nothing (min most (position - s.served)) (by omega)
        rw [serve] at outcome this
        cases outcome
        exact this rfl

theorem size_append_bytes (got : Array UInt8) (front : Bytes) :
    (got ++ front).size = got.size + front.length := by
  rw [← Array.length_toList, Array.toList_appendList, List.length_append, Array.length_toList]

/-- Too few bytes come only at the end. -/
theorem pending_of_fillFrom_short {s t : Source} {want : Nat} {got : Array UInt8} {bytes : Bytes}
    (unstalled : ∀ call, s.limit call ≠ some 0) (outcome : s.fillFrom want got = (.ok bytes, t))
    (short : bytes.length < got.size + want) : t.pending = [] := by
  fun_induction Source.fillFrom s want got with
  | case1 s got =>
    cases outcome
    rw [Array.length_toList] at short
    omega
  | case2 s want got wanted front u read last =>
    cases outcome
    rw [List.length_append, Array.length_toList] at short
    rw [Bool.or_eq_true, List.isEmpty_iff, beq_iff_eq] at last
    rcases last with rfl | rfl
    · exact pending_of_read_nil unstalled (by omega) read
    · omega
  | case3 s want got wanted front u read more ih =>
    have after := s.later_read want
    rw [read] at after
    have le := length_read_ok_le read
    refine ih (by rwa [after.limit]) outcome ?_
    rw [size_append_bytes]
    omega
  | case4 s want got wanted u read ih =>
    have after := s.later_read want
    rw [read] at after
    exact ih (by rwa [after.limit]) outcome short
  | case5 s want got wanted text u read => cases outcome

/-! ## Calls -/

/-- How many calls have been made and can still do something. -/
def budget (s : Source) : Nat := s.calls + s.remaining

theorem calls_read (s : Source) (most : Nat) : (s.read most).2.calls = s.calls + 1 := by
  unfold read
  split
  · rfl
  · split <;> rfl

theorem budget_read_ok {s t : Source} {most : Nat} {front : Bytes}
    (outcome : s.read most = (.ok front, t)) : t.budget + front.length = s.budget + 1 := by
  have calls := s.calls_read most
  have remaining := remaining_read_ok outcome
  rw [outcome] at calls
  dsimp only at calls
  unfold budget
  omega

theorem budget_read_error {s t : Source} {most : Nat} {failure : Failure}
    (outcome : s.read most = (.error failure, t)) : t.budget = s.budget := by
  have calls := s.calls_read most
  have remaining := remaining_read_error outcome
  rw [outcome] at calls
  dsimp only at calls
  unfold budget
  omega

/-- One call does nothing at most, and none if enough bytes come. -/
theorem budget_fillFrom (s : Source) (want : Nat) (got : Array UInt8) :
    (s.fillFrom want got).2.budget ≤ s.budget + 1 ∧
      ∀ bytes, (s.fillFrom want got).1 = .ok bytes → got.size + want ≤ bytes.length →
        (s.fillFrom want got).2.budget ≤ s.budget := by
  fun_induction Source.fillFrom s want got with
  | case1 s got => exact ⟨Nat.le_succ _, fun _ _ _ => Nat.le_refl _⟩
  | case2 s want got wanted front t outcome last =>
    have spent := budget_read_ok outcome
    refine ⟨by dsimp only; omega, fun bytes all enough => ?_⟩
    cases all
    rw [List.length_append, Array.length_toList] at enough
    dsimp only
    omega
  | case3 s want got wanted front t outcome more ih =>
    have spent := budget_read_ok outcome
    have le := length_read_ok_le outcome
    have some : front.length ≠ 0 := by
      intro none
      exact more (by simp [List.length_eq_zero_iff.1 none])
    refine ⟨by omega, fun bytes all enough => ?_⟩
    have := ih.2 bytes all (by rw [size_append_bytes]; omega)
    omega
  | case4 s want got wanted t outcome ih =>
    have spent := budget_read_error outcome
    rwa [← spent]
  | case5 s want got wanted text t outcome =>
    have spent := budget_read_error outcome
    exact ⟨by dsimp only; omega, fun bytes all => by cases all⟩

theorem budget_fill (s : Source) (want : Nat) :
    (s.fill want).2.budget ≤ s.budget + 1 ∧
      ∀ bytes, (s.fill want).1 = .ok bytes → want ≤ bytes.length →
        (s.fill want).2.budget ≤ s.budget := by
  rcases s.budget_fillFrom want #[] with ⟨most, enough⟩
  exact ⟨most, fun bytes all le => enough bytes all (by simpa using le)⟩

end Source

namespace Frame

variable {s t : Source} {body : Bytes}

theorem later_readBody (s : Source) (length : Nat) : s.Later (readBody s length).2 := by
  have after := s.later_fill (length - lengthSize)
  unfold readBody
  split
  · exact .refl s
  · split
    · exact .refl s
    · split
      · next filled => rwa [filled] at after
      · next filled =>
        rw [filled] at after
        split <;> exact after

theorem later_read (s : Source) : s.Later (read s).2 := by
  have after := s.later_fill lengthSize
  unfold read
  split
  · next filled => rwa [filled] at after
  · next filled =>
    rw [filled] at after
    split
    · exact after
    · split
      · exact after
      · exact after.trans (later_readBody _ _)

theorem length_of_readBody {length : Nat} (outcome : readBody s length = (.ok (some body), t)) :
    body.length + lengthSize = length := by
  unfold readBody at outcome
  split at outcome
  · cases outcome
  · split at outcome
    · cases outcome
    · split at outcome
      · cases outcome
      · next filled =>
        have le := Source.fill_length_le filled
        split at outcome
        · cases outcome
        · cases outcome
          omega

/-- A body that was read is that of the frame at the front. -/
theorem eq_encode_append_of_read (outcome : read s = (.ok (some body), t)) :
    s.pending = encode body ++ t.pending := by
  unfold read at outcome
  split at outcome
  · cases outcome
  · next front mid filled =>
    split at outcome
    · cases outcome
    · split at outcome
      · cases outcome
      · next enough =>
        have length : front.length = lengthSize := by
          have := Source.fill_length_le filled
          omega
        have digits := LittleEndian.digits_value front
        rw [length, ← length_of_readBody outcome] at digits
        rw [encode, digits, List.append_assoc, readBody_ok_append outcome,
          Source.fill_ok_append filled]

/-- Where no frame follows, nothing is read, and nothing is left unless a call was cut down to
nothing. -/
theorem pending_of_read_none (outcome : read s = (.ok none, t)) :
    t.pending = s.pending ∧ ((∀ call, s.limit call ≠ some 0) → s.pending = []) := by
  unfold read at outcome
  split at outcome
  · cases outcome
  · next front mid filled =>
    split at outcome
    · next empty =>
      cases outcome
      obtain rfl := List.length_eq_zero_iff.1 empty
      have same := Source.fill_ok_append filled
      rw [List.nil_append] at same
      refine ⟨same, fun unstalled => ?_⟩
      rw [← same]
      exact Source.pending_of_fillFrom_short unstalled filled (by decide)
    · split at outcome
      · cases outcome
      · unfold readBody at outcome
        repeat' split at outcome
        all_goals cases outcome

theorem budget_readBody (s : Source) (length : Nat) :
    (readBody s length).2.budget ≤ s.budget + 1 ∧
      ∀ body, (readBody s length).1 = .ok (some body) →
        (readBody s length).2.budget ≤ s.budget := by
  rcases s.budget_fill (length - lengthSize) with ⟨most, enough⟩
  unfold readBody
  split
  · exact ⟨Nat.le_succ _, fun body ok => by cases ok⟩
  · split
    · exact ⟨Nat.le_succ _, fun body ok => by cases ok⟩
    · split
      · next filled =>
        rw [filled] at most
        exact ⟨most, fun body ok => by cases ok⟩
      · next got u filled =>
        rw [filled] at most enough
        split
        · exact ⟨most, fun body ok => by cases ok⟩
        · next all => exact ⟨most, fun _ _ => enough got rfl (by omega)⟩

/-- One call does nothing at most, and none if a frame is read. -/
theorem budget_read (s : Source) :
    (read s).2.budget ≤ s.budget + 1 ∧
      ∀ body, (read s).1 = .ok (some body) → (read s).2.budget ≤ s.budget := by
  rcases s.budget_fill lengthSize with ⟨most, enough⟩
  unfold read
  split
  · next filled =>
    rw [filled] at most
    exact ⟨most, fun body ok => by cases ok⟩
  · next front u filled =>
    rw [filled] at most enough
    split
    · exact ⟨most, fun body ok => by cases ok⟩
    · split
      · exact ⟨most, fun body ok => by cases ok⟩
      · next long =>
        have before := enough front rfl (by omega)
        rcases budget_readBody u (LittleEndian.value front) with ⟨most', enough'⟩
        dsimp only at before
        exact ⟨by omega, fun body ok => Nat.le_trans (enough' body ok) before⟩

end Frame

end CallTrace
