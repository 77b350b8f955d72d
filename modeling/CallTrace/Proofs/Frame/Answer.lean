import CallTrace.Proofs.Frame.Progress

/-!
What a reader of one frame answers, and how many bytes it takes. `Answers` is the grammar of frames
as a relation between the bytes that are left, the answer and the number of bytes taken; `Awaits`
says past which positions the reader of a frame must get.

`read_iff_answers` says that `Frame.read` follows the grammar, whatever the schedule of the
transport, and that a fault at a position that it must get past is its answer.
-/

namespace CallTrace

/-- What was taken by `fill` is counted. -/
theorem Source.served_of_fill {s t : Source} {want : Nat} {front : Bytes}
    (filled : s.fill want = (.ok front, t)) : t.served = s.served + front.length := by
  have kept := s.total_fill want
  have split := congrArg List.length (fill_ok_append filled)
  rw [filled] at kept
  rw [List.length_append] at split
  unfold total at kept
  dsimp only at kept
  omega

namespace Frame

variable {s t : Source} {bytes body rest : Bytes} {stop : Option String} {e : FrameError}
  {answer : Except FrameError (Option Bytes)} {taken k : Nat}

/-! ## The grammar -/

/-- What a reader returns for some bytes behind which the stream ends, and how many of them it
takes. -/
inductive Answers (bytes : Bytes) : Except FrameError (Option Bytes) → Nat → Prop
  | ended : bytes = [] → Answers bytes (.ok none) 0
  | noLength : 0 < bytes.length → bytes.length < lengthSize →
    Answers bytes (.error (.truncated lengthSize bytes.length)) bytes.length
  | tooLarge : lengthSize ≤ bytes.length → maxLength < announced bytes →
    Answers bytes (.error (.tooLarge (announced bytes) maxLength)) lengthSize
  | tooSmall : lengthSize ≤ bytes.length → announced bytes < lengthSize →
    Answers bytes (.error (.tooSmall (announced bytes))) lengthSize
  | short : lengthSize ≤ bytes.length → lengthSize ≤ announced bytes →
    announced bytes ≤ maxLength → bytes.length < announced bytes →
    Answers bytes (.error (.truncated (announced bytes - lengthSize) (bytes.length - lengthSize)))
      bytes.length
  | framed : lengthSize ≤ announced bytes → announced bytes ≤ maxLength →
    announced bytes ≤ bytes.length →
    Answers bytes (.ok (some ((bytes.take (announced bytes)).drop lengthSize))) (announced bytes)

/-- Whether a reader must get past the first `k` bytes: they do not hold all of a length, or not all
of the frame that it announces. -/
def Awaits (bytes : Bytes) (k : Nat) : Prop :=
  k < lengthSize ∨ announced bytes ≤ maxLength ∧ k < announced bytes

theorem found_of_answers (grammar : Answers bytes answer taken) :
    (found bytes).1 = answer ∧ taken + (found bytes).2.length = bytes.length := by
  have size : lengthSize = 4 := rfl
  have limit : maxLength = 20971520 := rfl
  unfold found front
  cases grammar with
  | ended empty =>
    subst empty
    exact ⟨rfl, rfl⟩
  | noLength some few =>
    dsimp only
    rw [if_pos few, shortfall_of_lt some few]
    exact ⟨rfl, rfl⟩
  | tooLarge enough large =>
    dsimp only
    rw [if_neg (by omega), if_pos large]
    exact ⟨rfl, by rw [List.length_drop]; omega⟩
  | tooSmall enough tiny =>
    dsimp only
    rw [if_neg (by omega), if_neg (by omega), if_pos tiny]
    exact ⟨rfl, by rw [List.length_drop]; omega⟩
  | short enough large small missing =>
    dsimp only
    rw [if_neg (by omega), if_neg (by omega), if_neg (by omega), if_pos missing,
      shortfall_of_le enough]
    exact ⟨rfl, rfl⟩
  | framed large small all =>
    dsimp only
    rw [if_neg (by omega), if_neg (by omega), if_neg (by omega), if_neg (by omega)]
    exact ⟨rfl, by rw [List.length_drop]; omega⟩

/-- The grammar has an answer for all bytes. -/
theorem exists_answers (bytes : Bytes) : ∃ answer taken, Answers bytes answer taken := by
  by_cases empty : bytes = []
  · exact ⟨_, _, .ended empty⟩
  have some := List.length_pos_iff.2 empty
  by_cases few : bytes.length < lengthSize
  · exact ⟨_, _, .noLength some few⟩
  have enough := Nat.le_of_not_lt few
  by_cases large : maxLength < announced bytes
  · exact ⟨_, _, .tooLarge enough large⟩
  by_cases tiny : announced bytes < lengthSize
  · exact ⟨_, _, .tooSmall enough tiny⟩
  by_cases missing : bytes.length < announced bytes
  · exact ⟨_, _, .short enough (Nat.le_of_not_lt tiny) (Nat.le_of_not_lt large) missing⟩
  · exact ⟨_, _, .framed (Nat.le_of_not_lt tiny) (Nat.le_of_not_lt large)
      (Nat.le_of_not_lt missing)⟩

/-! ## Readers -/

/-- Whether a reader of one frame gives this answer, and takes so many bytes. -/
def Gives (s : Source) (answer : Except FrameError (Option Bytes)) (taken : Nat) : Prop :=
  (read s).1 = answer ∧ (read s).2.served = s.served + taken

/-- A reader that follows the grammar gives no other answer. -/
theorem answers_iff_gives (follows : ∀ answer taken, Answers bytes answer taken →
    Gives s answer taken) : Answers bytes answer taken ↔ Gives s answer taken := by
  refine ⟨follows answer taken, ?_⟩
  rintro ⟨rfl, count⟩
  rcases exists_answers bytes with ⟨answer, taken', grammar⟩
  rcases follows answer taken' grammar with ⟨same, count'⟩
  rw [same]
  obtain rfl : taken = taken' := by omega
  exact grammar

theorem gives_of_servesAll (serves : s.ServesAll bytes) (grammar : Answers bytes answer taken) :
    Gives s answer taken := by
  rcases read_of_servesAll serves with ⟨t, outcome, left⟩
  rcases found_of_answers grammar with ⟨rfl, count⟩
  have kept := total_read s
  rw [outcome, Source.total, Source.total, left.pending, serves.pending] at kept
  unfold Gives
  rw [outcome]
  dsimp only at kept ⊢
  exact ⟨rfl, by omega⟩

theorem served_of_framed (supply : s.Supplies bytes stop)
    (here : front bytes = .framed body rest) : Gives s (.ok (some body)) (announced bytes) := by
  rcases read_of_framed supply here with ⟨t, outcome, -⟩
  rcases eq_encode_append_of_front here with ⟨fits, rfl⟩
  have kept := total_read s
  have split := congrArg List.length (eq_encode_append_of_read outcome)
  rw [List.length_append, length_encode] at split
  rw [outcome, Source.total, Source.total] at kept
  unfold Gives
  rw [outcome, announced_encode (lt_capacity_of_le_maxLength fits)]
  dsimp only at kept ⊢
  exact ⟨rfl, by omega⟩

theorem served_of_refused (supply : s.Supplies bytes stop) (here : front bytes = .refused e) :
    Gives s (.error e) lengthSize := by
  rcases front_refused here with ⟨enough, bad⟩
  rcases supply.fill_enough enough with ⟨t, filled, -⟩
  have length := List.length_take_of_le enough
  have counted := Source.served_of_fill filled
  have outcome : read s = (.error e, t) := by
    rw [read, filled]
    dsimp only
    rw [length, if_neg (by decide), if_neg (by omega)]
    rcases bad with ⟨large, rfl⟩ | ⟨small, tiny, rfl⟩
    · rw [readBody, ← announced, if_pos large]
    · rw [readBody, ← announced, if_neg (by omega), if_pos tiny]
  unfold Gives
  rw [outcome]
  exact ⟨rfl, by rw [counted, length]⟩

/-! ## Faults -/

/-- A reader that need not get to the fault does not see it. -/
theorem gives_of_faultsAfter {text : String} (fault : s.FaultsAfter bytes k text)
    (enough : ¬ Awaits bytes k) (grammar : Answers bytes answer taken) :
    Gives s answer taken := by
  have supply := Source.Supplies.faulting fault
  have within := fault.within
  have length := List.length_take_of_le within
  have size : lengthSize = 4 := rfl
  have limit : maxLength = 20971520 := rfl
  unfold Awaits at enough
  have same := announced_take (k := k) (by omega) bytes
  cases grammar with
  | ended empty =>
    subst empty
    rw [List.length_nil] at within
    omega
  | noLength some few => omega
  | tooLarge present large =>
    refine served_of_refused supply ?_
    unfold front
    dsimp only
    rw [same, length, if_neg (by omega), if_pos large]
  | tooSmall present tiny =>
    refine served_of_refused supply ?_
    unfold front
    dsimp only
    rw [same, length, if_neg (by omega), if_neg (by omega), if_pos tiny]
  | short present large small missing => omega
  | framed large small all =>
    have here : front (bytes.take k) = .framed ((bytes.take (announced bytes)).drop lengthSize)
        ((bytes.take k).drop (announced bytes)) := by
      unfold front
      dsimp only
      rw [same, length, if_neg (by omega), if_neg (by omega), if_neg (by omega), if_neg (by omega),
        List.take_take, Nat.min_eq_left (by omega)]
    rw [← same]
    exact served_of_framed supply (same ▸ here)

theorem read_of_awaits {text : String} (fault : s.FaultsAfter bytes k text)
    (missing : Awaits bytes k) : (read s).1 = .error (.io text) := by
  have within := fault.within
  have length := List.length_take_of_le within
  have here : ∃ short, front (bytes.take k) = .unfinished short := by
    unfold front
    dsimp only
    rw [length]
    by_cases few : k < lengthSize
    · exact ⟨_, if_pos few⟩
    · rcases missing with few' | ⟨small, missing⟩
      · exact absurd few' few
      · have same := announced_take (Nat.le_of_not_lt few) bytes
        rw [same, if_neg few, if_neg (by omega), if_neg (by omega), if_pos missing]
        exact ⟨_, rfl⟩
  rcases here with ⟨short, here⟩
  rcases read_of_faulting (.faulting fault) here with ⟨t, outcome⟩
  rw [outcome]

/-- Readers follow the grammar, whatever the schedule. A fault is the answer of a reader that must
get past it, and otherwise is not seen. -/
theorem read_iff_answers (s : Source) (bytes : Bytes) :
    (s.ServesAll bytes → ∀ answer taken, Answers bytes answer taken ↔
      (read s).1 = answer ∧ (read s).2.served = s.served + taken) ∧
    ∀ k text, s.FaultsAfter bytes k text →
      (Awaits bytes k → (read s).1 = .error (.io text)) ∧
      (¬ Awaits bytes k → ∀ answer taken, Answers bytes answer taken ↔
        (read s).1 = answer ∧ (read s).2.served = s.served + taken) := by
  constructor
  · intro serves answer taken
    exact answers_iff_gives fun _ _ => gives_of_servesAll serves
  · intro k text fault
    refine ⟨read_of_awaits fault, fun enough answer taken => ?_⟩
    exact answers_iff_gives fun _ _ => gives_of_faultsAfter fault enough

/-- Three transports that hold a frame of two bytes and one byte more: one is interrupted and cut
into pieces, and the others fail within the frame and behind it. -/
theorem read_iff_answers_of_two_bytes :
    (read (.ofBytes [6, 0, 0, 0, 7, 8, 9] (some 3) [(1, .interrupted)])).1 = .ok (some [7, 8]) ∧
    (read (.ofBytes [6, 0, 0, 0, 7, 8, 9] (some 3) [(5, .fault "reset")])).1
      = .error (.io "reset") ∧
    (read (.ofBytes [6, 0, 0, 0, 7, 8, 9] (some 3) [(6, .fault "reset")])).1
      = .ok (some [7, 8]) := by
  have grammar : Answers [6, 0, 0, 0, 7, 8, 9] (.ok (some [7, 8])) 6 :=
    .framed (by decide) (by decide) (by decide)
  have clean : (Source.ofBytes [6, 0, 0, 0, 7, 8, 9] (some 3) [(1, .interrupted)]).ServesAll
      [6, 0, 0, 0, 7, 8, 9] := Source.servesAll_ofBytes _ (by decide) (by decide)
  have faulty : ∀ k ≤ 7, (Source.ofBytes [6, 0, 0, 0, 7, 8, 9] (some 3)
      [(k, .fault "reset")]).FaultsAfter [6, 0, 0, 0, 7, 8, 9] k "reset" :=
    fun k within => Source.faultsAfter_ofBytes "reset" (by decide) within
  refine ⟨?_, ?_, ?_⟩
  · exact (((read_iff_answers _ _).1 clean _ _).1 grammar).1
  · exact ((read_iff_answers _ _).2 5 _ (faulty 5 (by decide))).1 (.inr (by decide))
  · exact (((read_iff_answers _ _).2 6 _ (faulty 6 (by decide))).2 (by unfold Awaits; decide) _ _).1
      grammar |>.1

end Frame

end CallTrace
