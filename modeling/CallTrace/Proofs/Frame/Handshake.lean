import CallTrace.Frame.Handshake
import CallTrace.Proofs.Stream.Supply

/-!
The reader of handshake lines on a transport with known supply: it takes the line and its line feed,
and what follows them is supplied as before. A line that is too long or that ends with the stream is
refused; `read_of_servesAll` says that the answer and what is left depend on the bytes alone.
-/

namespace CallTrace.Handshake

variable {s : Source} {line rest : Bytes} {stop : Option String}

theorem readFrom_of_line (supply : s.Supplies (line ++ lineFeed :: rest) stop)
    (free : lineFeed ∉ line) (reversed : Bytes) (count : Nat) {room : Nat}
    (short : line.length ≤ room) :
    ∃ t, readFrom s reversed count room = (.ok (protocolOf (reversed.reverse ++ line)), t) ∧
      t.Supplies rest stop := by
  induction line generalizing s reversed count room with
  | nil =>
    rcases supply.fill_enough (show 1 ≤ ([] ++ lineFeed :: rest).length by simp)
      with ⟨t, filled, left⟩
    refine ⟨t, ?_, left⟩
    rw [readFrom, filled, List.append_nil]
    exact if_pos rfl
  | cons b later ih =>
    rw [List.mem_cons, not_or] at free
    rw [List.length_cons] at short
    rcases supply.fill_enough (show 1 ≤ (b :: later ++ lineFeed :: rest).length by simp)
      with ⟨t, filled, left⟩
    rcases ih left free.2 (b :: reversed) (count + 1) (Nat.le_sub_one_of_lt short)
      with ⟨u, read, after⟩
    refine ⟨u, ?_, after⟩
    have more : room ≠ 0 := by omega
    rw [List.reverse_cons, List.append_assoc, List.singleton_append] at read
    rw [readFrom, filled]
    simp only [List.cons_append, List.take_succ_cons]
    rw [if_neg (Ne.symm free.1), if_neg more]
    exact read

/-- A line that is not too long is read, and not one byte behind its line feed. -/
theorem read_of_line (supply : s.Supplies (line ++ lineFeed :: rest) stop) (free : lineFeed ∉ line)
    (short : line.length ≤ maxLength) :
    ∃ t, read s = (.ok (protocolOf line), t) ∧ t.Supplies rest stop :=
  readFrom_of_line supply free [] 0 short

theorem readFrom_of_long (supply : s.Supplies (line ++ rest) stop) (free : lineFeed ∉ line)
    (reversed : Bytes) (count : Nat) {room : Nat} (long : line.length = room + 1) :
    ∃ t, readFrom s reversed count room
        = (.error (.tooLarge (count + line.length) maxLength), t) ∧ t.Supplies rest stop := by
  induction line generalizing s reversed count room with
  | nil => cases long
  | cons b later ih =>
    rw [List.mem_cons, not_or] at free
    rw [List.length_cons] at long
    rcases supply.fill_enough (show 1 ≤ (b :: later ++ rest).length by simp) with ⟨t, filled, left⟩
    rw [readFrom, filled]
    simp only [List.cons_append, List.take_succ_cons]
    rw [if_neg (Ne.symm free.1)]
    cases room with
    | zero =>
      have last : later = [] := List.eq_nil_of_length_eq_zero (Nat.succ.inj long)
      subst last
      exact ⟨t, rfl, left⟩
    | succ room =>
      rcases ih left free.2 (b :: reversed) (count + 1) (Nat.succ.inj long) with ⟨u, read, after⟩
      have shift : count + 1 + later.length = count + (b :: later).length := by
        rw [List.length_cons]
        omega
      refine ⟨u, ?_, after⟩
      rw [if_neg (Nat.succ_ne_zero room), Nat.add_sub_cancel, read, shift]

theorem readFrom_of_short (supply : s.Supplies line none) (free : lineFeed ∉ line)
    (reversed : Bytes) (count : Nat) {room : Nat} (short : line.length ≤ room) :
    ∃ t, readFrom s reversed count room
        = (.error (.truncated (count + line.length + 1) (count + line.length)), t) ∧
      t.Supplies [] none := by
  induction line generalizing s reversed count room with
  | nil =>
    rcases supply.fill_short (show ([] : Bytes).length < 1 by simp) with ⟨t, filled, left⟩
    exact ⟨t, by rw [readFrom, filled]; rfl, left⟩
  | cons b later ih =>
    rw [List.mem_cons, not_or] at free
    rw [List.length_cons] at short
    rcases supply.fill_enough (show 1 ≤ (b :: later).length by simp) with ⟨t, filled, left⟩
    rcases ih left free.2 (b :: reversed) (count + 1) (Nat.le_sub_one_of_lt short)
      with ⟨u, read, after⟩
    have more : room ≠ 0 := by omega
    have shift : count + 1 + later.length = count + (b :: later).length := by
      rw [List.length_cons]
      omega
    refine ⟨u, ?_, after⟩
    rw [readFrom, filled]
    simp only [List.take_succ_cons]
    rw [if_neg (Ne.symm free.1), if_neg more, read, shift]

/-- A line without its line feed that is too long is left as soon as that shows. -/
theorem read_of_long (supply : s.Supplies (line ++ rest) stop) (free : lineFeed ∉ line)
    (long : line.length = maxLength + 1) :
    ∃ t, read s = (.error (.tooLarge line.length maxLength), t) ∧ t.Supplies rest stop := by
  have read := readFrom_of_long supply free [] 0 long
  rwa [Nat.zero_add] at read

/-- A line that ends with the stream instead of a line feed is read to the end. -/
theorem read_of_short (supply : s.Supplies line none) (free : lineFeed ∉ line)
    (short : line.length ≤ maxLength) :
    ∃ t, read s = (.error (.truncated (line.length + 1) line.length), t) ∧ t.Supplies [] none := by
  have read := readFrom_of_short supply free [] 0 short
  rwa [Nat.zero_add] at read

/-- Some bytes begin with a line, or with more than a line may have, or end before a line feed. -/
theorem line_cases (bytes : Bytes) (room : Nat) :
    (∃ line rest, bytes = line ++ lineFeed :: rest ∧ lineFeed ∉ line ∧ line.length ≤ room) ∨
      (∃ line rest, bytes = line ++ rest ∧ lineFeed ∉ line ∧ line.length = room + 1) ∨
      lineFeed ∉ bytes ∧ bytes.length ≤ room := by
  induction bytes generalizing room with
  | nil => exact .inr (.inr ⟨List.not_mem_nil, Nat.zero_le room⟩)
  | cons b later ih =>
    by_cases feed : lineFeed = b
    · subst feed
      exact .inl ⟨[], later, rfl, List.not_mem_nil, Nat.zero_le room⟩
    · have free {line : Bytes} (free : lineFeed ∉ line) : lineFeed ∉ b :: line :=
        List.not_mem_cons_of_ne_of_not_mem feed free
      cases room with
      | zero => exact .inr (.inl ⟨[b], later, rfl, free List.not_mem_nil, rfl⟩)
      | succ room =>
        rcases ih room with ⟨line, rest, rfl, none, short⟩ | ⟨line, rest, rfl, none, long⟩ |
          ⟨none, short⟩
        · exact .inl ⟨b :: line, rest, rfl, free none, Nat.succ_le_succ short⟩
        · exact .inr (.inl ⟨b :: line, rest, rfl, free none, congrArg Nat.succ long⟩)
        · exact .inr (.inr ⟨free none, Nat.succ_le_succ short⟩)

/-- The answer to a handshake, and what it leaves, depend on the bytes alone. -/
theorem read_of_servesAll (bytes : Bytes) :
    ∃ answer rest, ∀ s : Source, s.ServesAll bytes →
      ∃ t, read s = (answer, t) ∧ t.ServesAll rest := by
  rcases line_cases bytes maxLength with ⟨line, rest, rfl, free, short⟩ |
    ⟨line, rest, rfl, free, long⟩ | ⟨free, short⟩
  · refine ⟨.ok (protocolOf line), rest, fun s serves => ?_⟩
    rcases read_of_line (.ending serves) free short with ⟨t, read, left⟩
    exact ⟨t, read, left.servesAll⟩
  · refine ⟨.error (.tooLarge line.length maxLength), rest, fun s serves => ?_⟩
    rcases read_of_long (.ending serves) free long with ⟨t, read, left⟩
    exact ⟨t, read, left.servesAll⟩
  · refine ⟨.error (.truncated (bytes.length + 1) bytes.length), [], fun s serves => ?_⟩
    rcases read_of_short (.ending serves) free short with ⟨t, read, left⟩
    exact ⟨t, read, left.servesAll⟩

theorem total_readFrom (s : Source) (reversed : Bytes) (count room : Nat) :
    (readFrom s reversed count room).2.total = s.total := by
  fun_induction readFrom s reversed count room with
  | case1 s reversed count room text t filled =>
    have kept := s.total_fill 1
    rwa [filled] at kept
  | case2 s reversed count room t filled =>
    have kept := s.total_fill 1
    rwa [filled] at kept
  | case3 s reversed count room later t filled =>
    have kept := s.total_fill 1
    rwa [filled] at kept
  | case4 s reversed count b later t filled other =>
    have kept := s.total_fill 1
    rwa [filled] at kept
  | case5 s reversed count room b later t filled other more ih =>
    have kept := s.total_fill 1
    rw [filled] at kept
    exact ih.trans kept

/-- A handshake passes over no byte. -/
theorem total_read (s : Source) : (read s).2.total = s.total := total_readFrom s [] 0 maxLength

/-- A handshake with an answer has taken a line and its line feed. -/
theorem served_of_ok {bytes : Bytes} {protocol : Protocol} (serves : s.ServesAll bytes)
    (fresh : s.served = 0) (ok : (read s).1 = .ok protocol) :
    ∃ line rest, bytes = line ++ lineFeed :: rest ∧ lineFeed ∉ line ∧
      (read s).2.served = line.length + 1 := by
  rcases line_cases bytes maxLength with ⟨line, rest, rfl, free, short⟩ |
    ⟨line, rest, rfl, free, long⟩ | ⟨free, short⟩
  · rcases read_of_line (.ending serves) free short with ⟨t, read, left⟩
    have total := total_read s
    rw [read] at total ⊢
    change t.served + t.pending.length = s.served + s.pending.length at total
    rw [left.servesAll.pending, serves.pending, List.length_append, List.length_cons] at total
    exact ⟨line, rest, rfl, free, by dsimp only; omega⟩
  · rcases read_of_long (.ending serves) free long with ⟨t, read, -⟩
    rw [read] at ok
    cases ok
  · rcases read_of_short (.ending serves) free short with ⟨t, read, -⟩
    rw [read] at ok
    cases ok


end CallTrace.Handshake
