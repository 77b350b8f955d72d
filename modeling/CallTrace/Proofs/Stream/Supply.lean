import CallTrace.Stream.Source

/-!
What a transport has yet to give, whatever its schedule. `ServesAll` is a transport that ends behind
its bytes, and `FaultsAfter` one that fails for good behind the first `k` of them; both may cut
every call short and interrupt any number of them. `Supplies s bytes stop` is what a reader sees of
either: exactly `bytes`, and then the end of the stream or the fault `stop`.

`Supplies.fill` is the one law that readers build on: what `fill` returns depends on the bytes and
on the stop alone, and what is left is supplied as before. `total_fill` says that it passes over no
byte, so that what is left tells where the transport stands.
-/

namespace CallTrace.Source

/-- The transport serves all of some bytes and then ends. -/
structure ServesAll (s : Source) (bytes : Bytes) : Prop where
  pending : s.pending = bytes
  unstalled : ∀ call, s.limit call ≠ some 0
  retryable : ∀ planned ∈ s.failures, planned.2 = .interrupted

/-- The transport holds some bytes and fails for good once `k` of them have been served. What is
planned behind that fault is never met. -/
structure FaultsAfter (s : Source) (bytes : Bytes) (k : Nat) (text : String) : Prop where
  pending : s.pending = bytes
  within : k ≤ bytes.length
  unstalled : ∀ call, s.limit call ≠ some 0
  planned : ∃ before later, s.failures = before ++ (s.served + k, .fault text) :: later ∧
    ∀ earlier ∈ before, earlier.2 = .interrupted ∧ earlier.1 ≤ s.served + k

/-- Calls give exactly `bytes`, and then the end of the stream or the fault `stop`. -/
inductive Supplies : Source → Bytes → Option String → Prop
  | ending {s : Source} {bytes : Bytes} : s.ServesAll bytes → Supplies s bytes none
  | faulting {s : Source} {bytes : Bytes} {k : Nat} {text : String} :
    s.FaultsAfter bytes k text → Supplies s (bytes.take k) (some text)

/-! ## One call -/

/-- A call that is not cut down to nothing serves a front of the bytes. -/
theorem serve_eq_take {s : Source} {most : Nat} (unstalled : ∀ call, s.limit call ≠ some 0)
    (wanted : 0 < most) :
    ∃ n, 0 < n ∧ n ≤ most ∧ (s.serve most).1 = s.pending.take n := by
  have positive := unstalled s.calls
  cases limit : s.limit s.calls with
  | none => exact ⟨most, wanted, Nat.le_refl most, by simp [serve, limit, leastLimit, takeUpTo]⟩
  | some n =>
    have : n ≠ 0 := by
      rintro rfl
      exact positive limit
    exact ⟨min most n, by omega, Nat.min_le_left most n,
      by simp [serve, limit, leastLimit, takeUpTo]⟩

/-- How a call on a transport with known supply can come out: it serves some of the bytes, and none
only at a clean end; it is interrupted; or it meets the fault behind the last of them. -/
inductive Answer (bytes : Bytes) (stop : Option String) (most : Nat) :
    Except Failure Bytes × Source → Prop
  | served {front : Bytes} {t : Source} : front <+: bytes → front.length ≤ most →
    (front = [] → bytes = [] ∧ stop = none) → t.Supplies (bytes.drop front.length) stop →
    Answer bytes stop most (.ok front, t)
  | interrupted {t : Source} : t.Supplies bytes stop →
    Answer bytes stop most (.error .interrupted, t)
  | faulted {t : Source} {text : String} : bytes = [] → stop = some text →
    Answer bytes stop most (.error (.fault text), t)

theorem ServesAll.answer {s : Source} {bytes : Bytes} {most : Nat} (supply : s.ServesAll bytes)
    (wanted : 0 < most) : Answer bytes none most (s.read most) := by
  obtain ⟨rfl, unstalled, retryable⟩ := supply
  have serves : ∀ room, 0 < room → room ≤ most →
      Answer s.pending none most (.ok (s.serve room).1, (s.serve room).2) := by
    intro room room_pos le
    obtain ⟨n, n_pos, n_le, front⟩ := serve_eq_take unstalled room_pos
    refine .served ?_ (Nat.le_trans (s.length_serve_le room) le) ?_
      (.ending ⟨rfl, unstalled, retryable⟩)
    · rw [front]
      exact List.take_prefix n s.pending
    · intro none
      rw [front, List.take_eq_nil_iff] at none
      exact ⟨none.resolve_left (by omega), rfl⟩
  unfold read
  split
  · exact serves most wanted (Nat.le_refl most)
  · next position failure later here =>
    have interrupted : failure = .interrupted :=
      retryable (position, failure) (here ▸ List.mem_cons_self)
    split
    · subst interrupted
      refine .interrupted (.ending ⟨rfl, unstalled, fun planned mem => retryable planned ?_⟩)
      exact here ▸ List.mem_cons_of_mem _ mem
    · exact serves _ (by omega) (Nat.min_le_left ..)

theorem FaultsAfter.answer {s : Source} {bytes : Bytes} {k most : Nat} {text : String}
    (supply : s.FaultsAfter bytes k text) (wanted : 0 < most) :
    Answer (bytes.take k) (some text) most (s.read most) := by
  obtain ⟨rfl, within, unstalled, before, later, planned, earlier⟩ := supply
  -- A call never serves beyond the next planned failure, and none of these lies behind the fault.
  have serves : ∀ room, 0 < room → room ≤ most → room ≤ k →
      Answer (s.pending.take k) (some text) most (.ok (s.serve room).1, (s.serve room).2) := by
    intro room room_pos le le_k
    obtain ⟨n, n_pos, n_le, front⟩ := serve_eq_take unstalled room_pos
    have length : (s.serve room).1.length = n := by
      rw [front, List.length_take]
      omega
    refine .served ?_ (Nat.le_trans (s.length_serve_le room) le) ?_ ?_
    · rw [front]
      exact List.take_prefix_take_left (by omega)
    · intro none
      rw [none, List.length_nil] at length
      omega
    · rw [length, List.drop_take]
      refine .faulting ⟨?_, ?_, unstalled, before, later, ?_, ?_⟩
      · rw [← length]
        rfl
      · rw [List.length_drop]
        omega
      · have served : (s.serve room).2.served + (k - n) = s.served + k := by
          rw [← length]
          have : (s.serve room).1.length ≤ k := by omega
          change s.served + (s.serve room).1.length + (k - (s.serve room).1.length) = _
          omega
        rw [served]
        exact planned
      · intro planned mem
        have := earlier planned mem
        have served : (s.serve room).2.served = s.served + n := by
          rw [← length]
          rfl
        exact ⟨this.1, by omega⟩
  unfold read
  cases before with
  | nil =>
    rw [List.nil_append] at planned
    rw [planned]
    dsimp only
    split
    · have : k = 0 := by omega
      subst this
      exact .faulted rfl rfl
    · exact serves _ (by omega) (Nat.min_le_left ..) (by omega)
  | cons first before =>
    obtain ⟨position, failure⟩ := first
    obtain ⟨interrupted, le⟩ := earlier (position, failure) List.mem_cons_self
    dsimp only at interrupted le
    subst interrupted
    rw [List.cons_append] at planned
    rw [planned]
    dsimp only
    split
    · exact .interrupted (.faulting ⟨rfl, within, unstalled, before, later, rfl,
        fun planned mem => earlier planned (List.mem_cons_of_mem _ mem)⟩)
    · exact serves _ (by omega) (Nat.min_le_left ..) (by omega)

/-- A call on a transport with known supply. -/
theorem Supplies.answer {s : Source} {bytes : Bytes} {stop : Option String} {most : Nat}
    (supply : s.Supplies bytes stop) (wanted : 0 < most) :
    Answer bytes stop most (s.read most) := by
  cases supply with
  | ending supply => exact supply.answer wanted
  | faulting supply => exact supply.answer wanted

/-- A supply that no fault stops is all of the bytes. -/
theorem Supplies.servesAll {s : Source} {bytes : Bytes} (supply : s.Supplies bytes none) :
    s.ServesAll bytes := by
  cases supply with
  | ending serves => exact serves

theorem servesAll_ofBytes (bytes : Bytes) {chunk : Option Nat} {failures : List (Nat × Failure)}
    (unstalled : chunk ≠ some 0) (retryable : ∀ planned ∈ failures, planned.2 = .interrupted) :
    (ofBytes bytes chunk failures).ServesAll bytes :=
  ⟨rfl, fun _ => unstalled, fun planned mem => retryable planned (Failure.mem_inOrder_iff.1 mem)⟩

theorem faultsAfter_ofBytes {bytes : Bytes} {chunk : Option Nat} {k : Nat} (text : String)
    (unstalled : chunk ≠ some 0) (within : k ≤ bytes.length) :
    (ofBytes bytes chunk [(k, .fault text)]).FaultsAfter bytes k text := by
  refine ⟨rfl, within, fun _ => unstalled, [], [], ?_, List.forall_mem_nil _⟩
  simp [ofBytes, Failure.inOrder, Failure.place]

theorem supplies_ofBytes (bytes : Bytes) : (ofBytes bytes none []).Supplies bytes none :=
  .ending (servesAll_ofBytes bytes nofun nofun)

/-! ## Calls until enough bytes have come -/

/-- What a reader gets that asks for `want` bytes: so many, or all there are before a clean end, or
the fault. -/
def filled (bytes : Bytes) (stop : Option String) (want : Nat) : Except String Bytes :=
  if want ≤ bytes.length then .ok (bytes.take want)
  else
    match stop with
    | none => .ok bytes
    | some text => .error text

theorem filled_drop {bytes front : Bytes} {stop : Option String} {want : Nat}
    (isPrefix : front <+: bytes) (le : front.length ≤ want) :
    filled bytes stop want
      = (filled (bytes.drop front.length) stop (want - front.length)).map (front ++ ·) := by
  obtain ⟨rest, rfl⟩ := isPrefix
  rw [List.drop_left]
  unfold filled
  rw [List.length_append]
  by_cases enough : want ≤ front.length + rest.length
  · rw [if_pos enough, if_pos (by omega), List.take_append, List.take_of_length_le le]
    rfl
  · rw [if_neg enough, if_neg (by omega)]
    cases stop <;> rfl

theorem Supplies.fillFrom {s : Source} {bytes : Bytes} {stop : Option String}
    (supply : s.Supplies bytes stop) (want : Nat) (got : Array UInt8) :
    (s.fillFrom want got).1 = (filled bytes stop want).map (got.toList ++ ·) ∧
      ∀ result, (s.fillFrom want got).1 = .ok result →
        (s.fillFrom want got).2.Supplies (bytes.drop want) stop := by
  fun_induction Source.fillFrom s want got generalizing bytes with
  | case1 s got => exact ⟨by simp [filled, Except.map], fun _ _ => by simpa using supply⟩
  | case2 s want got wanted front t outcome last =>
    have answer : Answer bytes stop want (s.read want) := supply.answer (by omega)
    rw [outcome] at answer
    cases answer with
    | served isPrefix le empty left =>
      rw [Bool.or_eq_true, List.isEmpty_iff, beq_iff_eq] at last
      rcases last with rfl | rfl
      · obtain ⟨rfl, rfl⟩ := empty rfl
        refine ⟨?_, fun _ _ => by simpa using left⟩
        rw [filled, if_neg (by simpa using wanted)]
        rfl
      · refine ⟨?_, fun _ _ => left⟩
        obtain ⟨rest, rfl⟩ := isPrefix
        simp [filled, Except.map]
  | case3 s want got wanted front t outcome more ih =>
    have answer : Answer bytes stop want (s.read want) := supply.answer (by omega)
    rw [outcome] at answer
    cases answer with
    | served isPrefix le empty left =>
      obtain ⟨result, supplied⟩ := ih left
      constructor
      · rw [result, filled_drop isPrefix le]
        cases filled (bytes.drop front.length) stop (want - front.length) with
        | error text => rfl
        | ok rest => simp [Except.map]
      · intro all ok
        have := supplied all ok
        rwa [List.drop_drop, Nat.add_sub_cancel' le] at this
  | case4 s want got wanted t outcome ih =>
    have answer : Answer bytes stop want (s.read want) := supply.answer (by omega)
    rw [outcome] at answer
    cases answer with
    | interrupted left => exact ih left
  | case5 s want got wanted text t outcome =>
    have answer : Answer bytes stop want (s.read want) := supply.answer (by omega)
    rw [outcome] at answer
    cases answer with
    | faulted empty stopped =>
      subst empty stopped
      refine ⟨?_, fun _ ok => by cases ok⟩
      rw [filled, if_neg (by simpa using wanted)]
      rfl

/-- What `fill` returns depends on the supply alone, and what is left is supplied as before. -/
theorem Supplies.fill {s : Source} {bytes : Bytes} {stop : Option String}
    (supply : s.Supplies bytes stop) (want : Nat) :
    (s.fill want).1 = filled bytes stop want ∧
      ∀ result, (s.fill want).1 = .ok result →
        (s.fill want).2.Supplies (bytes.drop want) stop := by
  obtain ⟨result, left⟩ := supply.fillFrom want #[]
  refine ⟨?_, left⟩
  rw [Source.fill, result]
  cases filled bytes stop want <;> rfl

/-- Enough bytes are there. -/
theorem Supplies.fill_enough {s : Source} {bytes : Bytes} {stop : Option String} {want : Nat}
    (supply : s.Supplies bytes stop) (enough : want ≤ bytes.length) :
    ∃ t, s.fill want = (.ok (bytes.take want), t) ∧ t.Supplies (bytes.drop want) stop := by
  obtain ⟨result, left⟩ := supply.fill want
  unfold filled at result
  rw [if_pos enough] at result
  exact ⟨(s.fill want).2, Prod.ext result rfl, left _ result⟩

/-- The bytes end before enough have come. -/
theorem Supplies.fill_short {s : Source} {bytes : Bytes} {want : Nat}
    (supply : s.Supplies bytes none) (short : bytes.length < want) :
    ∃ t, s.fill want = (.ok bytes, t) ∧ t.Supplies [] none := by
  obtain ⟨result, left⟩ := supply.fill want
  rw [filled, if_neg (by omega)] at result
  have after := left _ result
  rw [List.drop_eq_nil_of_le (by omega)] at after
  exact ⟨(s.fill want).2, Prod.ext result rfl, after⟩

/-- The fault comes before enough bytes have come. -/
theorem Supplies.fill_faulted {s : Source} {bytes : Bytes} {text : String} {want : Nat}
    (supply : s.Supplies bytes (some text)) (short : bytes.length < want) :
    ∃ t, s.fill want = (.error text, t) := by
  obtain ⟨result, -⟩ := supply.fill want
  rw [filled, if_neg (by omega)] at result
  exact ⟨(s.fill want).2, Prod.ext result rfl⟩

/-! ## Where a transport stands -/

/-- How many bytes a transport serves in all. -/
def total (s : Source) : Nat := s.served + s.pending.length

theorem total_serve (s : Source) (most : Nat) : (s.serve most).2.total = s.total := by
  have split := congrArg List.length (s.serve_append most)
  rw [List.length_append] at split
  change s.served + (s.serve most).1.length + (s.serve most).2.pending.length = s.total
  unfold total
  omega

theorem total_read (s : Source) (most : Nat) : (s.read most).2.total = s.total := by
  unfold read
  split
  · exact s.total_serve most
  · split
    · rfl
    · exact s.total_serve _

theorem total_fillFrom (s : Source) (want : Nat) (got : Array UInt8) :
    (s.fillFrom want got).2.total = s.total := by
  fun_induction Source.fillFrom s want got with
  | case1 s got => rfl
  | case2 s want got wanted front t outcome last =>
    have kept := s.total_read want
    rwa [outcome] at kept
  | case3 s want got wanted front t outcome more ih =>
    have kept := s.total_read want
    rw [outcome] at kept
    exact ih.trans kept
  | case4 s want got wanted t outcome ih =>
    have kept := s.total_read want
    rw [outcome] at kept
    exact ih.trans kept
  | case5 s want got wanted text t outcome =>
    have kept := s.total_read want
    rwa [outcome] at kept

/-- Bytes move from those to come to those served, and none is passed over. -/
theorem total_fill (s : Source) (want : Nat) : (s.fill want).2.total = s.total :=
  s.total_fillFrom want #[]

end CallTrace.Source
