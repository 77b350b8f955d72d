import CallTrace.Frame.Writing
import CallTrace.Proofs.Stream.Supply
import Mathlib.Algebra.GroupWithZero.Nat

/-!
Which bytes are frames. `front` says what stands at the front of some bytes: a frame, a length that
no frame has, or less than a frame; `split` takes all frames off the front. `read_of_framed` and the
laws beside it say that a reader finds exactly this, on every transport that supplies the bytes.

`front_encode_append` and `eq_encode_append_of_front` tie the grammar to what is written,
`bodies_frames_append` says what a reader finds of written frames, and `eq_frames_append_of_take`
what a cut makes of the bytes.
-/

namespace CallTrace

theorem LittleEndian.digits_value (bytes : Bytes) :
    LittleEndian.digits bytes.length (LittleEndian.value bytes) = bytes := by
  induction bytes with
  | nil => rfl
  | cons b rest ih =>
    have bound := b.toNat_lt
    have low : UInt8.ofNat (b.toNat + 256 * LittleEndian.value rest) = b := by
      rw [UInt8.ofNat_add, UInt8.ofNat_mul, UInt8.ofNat_toNat]
      have : UInt8.ofNat 256 = 0 := rfl
      rw [this, UInt8.zero_mul, UInt8.add_zero]
    have high : (b.toNat + 256 * LittleEndian.value rest) / 256 = LittleEndian.value rest := by
      omega
    rw [List.length_cons, LittleEndian.value, LittleEndian.digits, low, high, ih]

namespace Frame

/-- What stands at the front of some bytes. -/
inductive Front where
  | framed (body rest : Bytes)
  /-- A length that no frame has. -/
  | refused (e : FrameError)
  /-- Less than a frame, with what a clean end makes of it: nothing is missing from nothing. -/
  | unfinished (short : Option FrameError)

/-- The length that the first four bytes announce. -/
def announced (bytes : Bytes) : Nat := LittleEndian.value (bytes.take lengthSize)

/-- What is wrong with the first `present` bytes of a frame if nothing follows them. -/
def shortfall (present length : Nat) : Option FrameError :=
  if present = 0 then none
  else if present < lengthSize then some (.truncated lengthSize present)
  else some (.truncated (length - lengthSize) (present - lengthSize))

theorem shortfall_zero (length : Nat) : shortfall 0 length = none := rfl

theorem shortfall_of_lt {present : Nat} (some : 0 < present) (few : present < lengthSize)
    (length : Nat) : shortfall present length = .some (.truncated lengthSize present) := by
  unfold shortfall
  rw [if_neg (by omega), if_pos few]

theorem shortfall_of_le {present : Nat} (enough : lengthSize ≤ present) (length : Nat) :
    shortfall present length = some (.truncated (length - lengthSize) (present - lengthSize)) := by
  have size : lengthSize = 4 := rfl
  unfold shortfall
  rw [if_neg (by omega), if_neg (by omega)]

theorem truncated_of_shortfall {present length : Nat} {e : FrameError}
    (missing : shortfall present length = some e) :
    ∃ expected actual, e = .truncated expected actual := by
  unfold shortfall at missing
  split at missing
  · cases missing
  · split at missing
    · cases missing
      exact ⟨_, _, rfl⟩
    · cases missing
      exact ⟨_, _, rfl⟩

/-- What stands at the front of some bytes. -/
def front (bytes : Bytes) : Front :=
  let length := announced bytes
  if bytes.length < lengthSize then .unfinished (shortfall bytes.length length)
  else if maxLength < length then .refused (.tooLarge length maxLength)
  else if length < lengthSize then .refused (.tooSmall length)
  else if bytes.length < length then .unfinished (shortfall bytes.length length)
  else .framed ((bytes.take length).drop lengthSize) (bytes.drop length)

variable {s : Source} {bytes body rest : Bytes} {stop : Option String} {e : FrameError}
  {short : Option FrameError}

theorem front_framed (here : front bytes = .framed body rest) :
    lengthSize ≤ announced bytes ∧ announced bytes ≤ maxLength ∧ announced bytes ≤ bytes.length ∧
      body = (bytes.take (announced bytes)).drop lengthSize ∧
      rest = bytes.drop (announced bytes) := by
  simp only [front] at here
  repeat' split at here
  all_goals cases here
  exact ⟨by omega, by omega, by omega, rfl, rfl⟩

theorem front_refused (here : front bytes = .refused e) :
    lengthSize ≤ bytes.length ∧
      (maxLength < announced bytes ∧ e = .tooLarge (announced bytes) maxLength ∨
        announced bytes ≤ maxLength ∧ announced bytes < lengthSize ∧
          e = .tooSmall (announced bytes)) := by
  simp only [front] at here
  repeat' split at here
  all_goals cases here
  · exact ⟨by omega, .inl ⟨by assumption, rfl⟩⟩
  · exact ⟨by omega, .inr ⟨by omega, by assumption, rfl⟩⟩

theorem front_unfinished (here : front bytes = .unfinished short) :
    short = shortfall bytes.length (announced bytes) ∧
      (bytes.length < lengthSize ∨
        lengthSize ≤ bytes.length ∧ bytes.length < announced bytes ∧
          announced bytes ≤ maxLength) := by
  simp only [front] at here
  repeat' split at here
  all_goals cases here
  · exact ⟨rfl, .inl (by assumption)⟩
  · exact ⟨rfl, .inr ⟨by omega, by assumption, by omega⟩⟩

/-! ## Readers follow the grammar -/

/-- Once the length is there, the rest of a frame is read by it. -/
theorem read_eq_readBody (supply : s.Supplies bytes stop) (enough : lengthSize ≤ bytes.length) :
    ∃ t, read s = readBody t (announced bytes) ∧ t.Supplies (bytes.drop lengthSize) stop := by
  obtain ⟨t, filled, left⟩ := supply.fill_enough enough
  have length : (bytes.take lengthSize).length = lengthSize := by
    rw [List.length_take]
    omega
  refine ⟨t, ?_, left⟩
  rw [read, filled]
  dsimp only
  rw [length, if_neg (by decide), if_neg (by omega)]
  rfl

theorem read_of_framed (supply : s.Supplies bytes stop) (here : front bytes = .framed body rest) :
    ∃ t, read s = (.ok (some body), t) ∧ t.Supplies rest stop := by
  obtain ⟨large, small, all, rfl, rfl⟩ := front_framed here
  obtain ⟨t, eq, left⟩ := read_eq_readBody supply (by omega)
  have enough : announced bytes - lengthSize ≤ (bytes.drop lengthSize).length := by
    rw [List.length_drop]
    omega
  obtain ⟨u, filled, after⟩ := left.fill_enough enough
  have length : ((bytes.drop lengthSize).take (announced bytes - lengthSize)).length
      = announced bytes - lengthSize := by
    rw [List.length_take]
    omega
  refine ⟨u, ?_, ?_⟩
  · rw [eq, readBody, if_neg (by omega), if_neg (by omega), filled]
    dsimp only
    rw [if_neg (by omega), List.drop_take]
  · rwa [List.drop_drop, Nat.add_sub_cancel' (by omega)] at after

theorem read_of_refused (supply : s.Supplies bytes stop) (here : front bytes = .refused e) :
    ∃ t, read s = (.error e, t) ∧ t.Supplies (bytes.drop lengthSize) stop := by
  obtain ⟨enough, bad⟩ := front_refused here
  obtain ⟨t, eq, left⟩ := read_eq_readBody supply enough
  refine ⟨t, ?_, left⟩
  rcases bad with ⟨large, rfl⟩ | ⟨small, tiny, rfl⟩
  · rw [eq, readBody, if_pos large]
  · rw [eq, readBody, if_neg (by omega), if_pos tiny]

/-- What ends a stream within a frame: what is missing, or the fault in its place. -/
def stopError (stop : Option String) (short : Option FrameError) : Option FrameError :=
  match stop with
  | none => short
  | some text => some (.io text)

/-- The answer of a reader that finds no frame. -/
def noFrame : Option FrameError → Except FrameError (Option Bytes)
  | none => .ok none
  | some e => .error e

/-- A clean end within a frame: all bytes are read. -/
theorem read_of_ending (supply : s.Supplies bytes none) (here : front bytes = .unfinished short) :
    ∃ t, read s = (noFrame short, t) ∧ t.Supplies [] none := by
  obtain ⟨rfl, missing⟩ := front_unfinished here
  rcases missing with few | ⟨enough, missing, small⟩
  · obtain ⟨t, filled, left⟩ := supply.fill_short few
    refine ⟨t, ?_, left⟩
    rw [read, filled]
    dsimp only
    by_cases empty : bytes.length = 0
    · rw [if_pos empty, empty, shortfall_zero, noFrame]
    · rw [if_neg empty, if_pos few, shortfall_of_lt (by omega) few, noFrame]
  · obtain ⟨t, eq, left⟩ := read_eq_readBody supply enough
    have less : (bytes.drop lengthSize).length < announced bytes - lengthSize := by
      rw [List.length_drop]
      omega
    obtain ⟨u, filled, after⟩ := left.fill_short less
    refine ⟨u, ?_, after⟩
    rw [eq, readBody, if_neg (by omega), if_neg (by omega), filled, shortfall_of_le enough, noFrame]
    dsimp only
    rw [if_pos less, List.length_drop]

/-- A fault within a frame. -/
theorem read_of_faulting {text : String} (supply : s.Supplies bytes (some text))
    (here : front bytes = .unfinished short) : ∃ t, read s = (.error (.io text), t) := by
  obtain ⟨rfl, missing⟩ := front_unfinished here
  rcases missing with few | ⟨enough, missing, small⟩
  · obtain ⟨t, filled⟩ := supply.fill_faulted few
    exact ⟨t, by rw [read, filled]⟩
  · obtain ⟨t, eq, left⟩ := read_eq_readBody supply enough
    have less : (bytes.drop lengthSize).length < announced bytes - lengthSize := by
      rw [List.length_drop]
      omega
    obtain ⟨u, filled⟩ := left.fill_faulted less
    exact ⟨u, by rw [eq, readBody, if_neg (by omega), if_neg (by omega), filled]⟩

theorem read_of_unfinished (supply : s.Supplies bytes stop)
    (here : front bytes = .unfinished short) :
    ∃ t, read s = (noFrame (stopError stop short), t) := by
  cases stop with
  | none =>
    obtain ⟨t, eq, -⟩ := read_of_ending supply here
    exact ⟨t, eq⟩
  | some text => exact read_of_faulting supply here

/-- What a reader that looks for a frame makes of some bytes behind which the stream ends: its
answer, and the bytes that it leaves. -/
def found (bytes : Bytes) : Except FrameError (Option Bytes) × Bytes :=
  match front bytes with
  | .framed body rest => (.ok (some body), rest)
  | .refused e => (.error e, bytes.drop lengthSize)
  | .unfinished short => (noFrame short, [])

/-- A reader does not read ahead, and its answer depends on the bytes alone. -/
theorem read_of_servesAll (serves : s.ServesAll bytes) :
    ∃ t, read s = ((found bytes).1, t) ∧ t.ServesAll (found bytes).2 := by
  unfold found
  cases here : front bytes with
  | framed body rest =>
    obtain ⟨t, eq, left⟩ := read_of_framed (.ending serves) here
    exact ⟨t, eq, left.servesAll⟩
  | refused e =>
    obtain ⟨t, eq, left⟩ := read_of_refused (.ending serves) here
    exact ⟨t, eq, left.servesAll⟩
  | unfinished short =>
    obtain ⟨t, eq, left⟩ := read_of_ending (.ending serves) here
    exact ⟨t, eq, left.servesAll⟩

theorem total_readBody (s : Source) (length : Nat) : (readBody s length).2.total = s.total := by
  have kept := s.total_fill (length - lengthSize)
  unfold readBody
  split
  · rfl
  · split
    · rfl
    · split
      · next filled => rwa [filled] at kept
      · next filled =>
        rw [filled] at kept
        split <;> exact kept

/-- A reader passes over no byte. -/
theorem total_read (s : Source) : (read s).2.total = s.total := by
  have kept := s.total_fill lengthSize
  unfold read
  split
  · next filled => rwa [filled] at kept
  · next filled =>
    rw [filled] at kept
    split
    · exact kept
    · split
      · exact kept
      · exact (total_readBody _ _).trans kept

/-! ## All frames at the front -/

theorem length_rest_lt (here : front bytes = .framed body rest) : rest.length < bytes.length := by
  obtain ⟨large, small, all, -, rfl⟩ := front_framed here
  have size : lengthSize = 4 := rfl
  rw [List.length_drop]
  omega

/-- The bodies of the frames at the front of some bytes, and what follows the last of them. -/
def split (bytes : Bytes) : List Bytes × Bytes :=
  match _here : front bytes with
  | .framed body rest => (body :: (split rest).1, (split rest).2)
  | .refused _ => ([], bytes)
  | .unfinished _ => ([], bytes)
termination_by bytes.length
decreasing_by all_goals exact length_rest_lt _here

/-- The bodies of the frames at the front of some bytes. -/
def bodies (bytes : Bytes) : List Bytes := (split bytes).1

/-- What follows the frames at the front of some bytes. -/
def remainder (bytes : Bytes) : Bytes := (split bytes).2

theorem split_of_framed (here : front bytes = .framed body rest) :
    bodies bytes = body :: bodies rest ∧ remainder bytes = remainder rest := by
  unfold bodies remainder
  rw [split]
  split
  · next here' =>
    rw [here] at here'
    cases here'
    exact ⟨rfl, rfl⟩
  · next here' =>
    rw [here] at here'
    cases here'
  · next here' =>
    rw [here] at here'
    cases here'

/-- No frame stands at the front. -/
def Unframed (bytes : Bytes) : Prop := ∀ body rest, front bytes ≠ .framed body rest

theorem framed_or_unframed (bytes : Bytes) :
    (∃ body rest, front bytes = .framed body rest) ∨ Unframed bytes := by
  by_cases framed : ∃ body rest, front bytes = .framed body rest
  · exact .inl framed
  · exact .inr fun body rest here => framed ⟨body, rest, here⟩

theorem Unframed.split (none : Unframed bytes) : bodies bytes = [] ∧ remainder bytes = bytes := by
  unfold bodies remainder
  rw [Frame.split]
  split
  · next body rest here => exact absurd here (none body rest)
  · exact ⟨rfl, rfl⟩
  · exact ⟨rfl, rfl⟩

/-! ## Frames that were written -/

theorem length_encode (body : Bytes) : (encode body).length = body.length + lengthSize := by
  rw [encode, List.length_append, LittleEndian.length_digits, Nat.add_comm]

/-- How many bytes the frames of some bodies take. -/
def extent (bodies : List Bytes) : Nat := (bodies.map fun body => body.length + lengthSize).sum

theorem extent_cons (body : Bytes) (later : List Bytes) :
    extent (body :: later) = body.length + lengthSize + extent later := by
  rw [extent, List.map_cons, List.sum_cons, extent]

theorem extent_append (front back : List Bytes) :
    extent (front ++ back) = extent front + extent back := by
  rw [extent, List.map_append, List.sum_append, extent, extent]

theorem length_flatMap_encode (bodies : List Bytes) :
    (bodies.flatMap encode).length = extent bodies := by
  induction bodies with
  | nil => rfl
  | cons body later ih =>
    rw [List.flatMap_cons, List.length_append, length_encode, ih, extent_cons]

theorem announced_take {k : Nat} (enough : lengthSize ≤ k) (bytes : Bytes) :
    announced (bytes.take k) = announced bytes := by
  rw [announced, List.take_take, Nat.min_eq_left enough, announced]

theorem lt_capacity_of_le_maxLength {length : Nat} (fits : length ≤ maxLength) :
    length < LittleEndian.capacity lengthSize := by
  have capacity : maxLength < LittleEndian.capacity lengthSize := by decide
  omega

theorem announced_encode (small : body.length + lengthSize < LittleEndian.capacity lengthSize)
    (rest : Bytes) : announced (encode body ++ rest) = body.length + lengthSize := by
  have prefixed : (encode body ++ rest).take lengthSize
      = LittleEndian.digits lengthSize (body.length + lengthSize) := by
    rw [encode, List.append_assoc]
    exact List.take_left' (LittleEndian.length_digits ..)
  rw [announced, prefixed, LittleEndian.value_digits small]

/-- What was written is found again. -/
theorem front_encode_append (fits : body.length + lengthSize ≤ maxLength) (rest : Bytes) :
    front (encode body ++ rest) = .framed body rest := by
  have length : (encode body ++ rest).length = body.length + lengthSize + rest.length := by
    rw [List.length_append, length_encode]
  unfold front
  simp only [announced_encode (lt_capacity_of_le_maxLength fits)]
  rw [if_neg (by omega), if_neg (by omega), if_neg (by omega), if_neg (by omega)]
  have whole : (encode body ++ rest).take (body.length + lengthSize) = encode body :=
    List.take_left' (length_encode body)
  have after : (encode body ++ rest).drop (body.length + lengthSize) = rest :=
    List.drop_left' (length_encode body)
  rw [whole, after, encode, List.drop_left' (LittleEndian.length_digits ..)]

/-- What is found was written. -/
theorem eq_encode_append_of_front (here : front bytes = .framed body rest) :
    body.length + lengthSize ≤ maxLength ∧ bytes = encode body ++ rest := by
  obtain ⟨large, small, all, rfl, rfl⟩ := front_framed here
  have size : lengthSize = 4 := rfl
  have length : ((bytes.take (announced bytes)).drop lengthSize).length + lengthSize
      = announced bytes := by
    rw [List.length_drop, List.length_take]
    omega
  refine ⟨by rw [length]; exact small, ?_⟩
  have digits : LittleEndian.digits lengthSize (announced bytes) = bytes.take lengthSize := by
    have := LittleEndian.digits_value (bytes.take lengthSize)
    rwa [List.length_take, Nat.min_eq_left (by omega)] at this
  have whole : bytes.take lengthSize ++ (bytes.take (announced bytes)).drop lengthSize
      = bytes.take (announced bytes) := by
    have := List.take_append_drop lengthSize (bytes.take (announced bytes))
    rwa [List.take_take, Nat.min_eq_left large] at this
  rw [encode, length, digits, whole, List.take_append_drop]

/-- Some bytes are frames and a remainder in which no frame begins that is complete. -/
theorem eq_frames_append_remainder (bytes : Bytes) :
    bytes = (bodies bytes).flatMap encode ++ remainder bytes ∧ Unframed (remainder bytes) ∧
      ∀ body ∈ bodies bytes, body.length + lengthSize ≤ maxLength := by
  rcases framed_or_unframed bytes with ⟨body, rest, here⟩ | none
  · obtain ⟨fits, eq⟩ := eq_encode_append_of_front here
    obtain ⟨bodiesEq, remainderEq⟩ := split_of_framed here
    have : rest.length < bytes.length := length_rest_lt here
    obtain ⟨restEq, unframed, restFits⟩ := eq_frames_append_remainder rest
    rw [bodiesEq, remainderEq]
    refine ⟨?_, unframed, ?_⟩
    · rw [List.flatMap_cons, List.append_assoc, ← restEq, eq]
    · intro other mem
      rcases List.mem_cons.1 mem with rfl | mem
      · exact fits
      · exact restFits other mem
  · obtain ⟨bodiesEq, remainderEq⟩ := none.split
    rw [bodiesEq, remainderEq]
    exact ⟨rfl, none, fun _ mem => by cases mem⟩
termination_by bytes.length

theorem split_frames_append {written : List Bytes}
    (fits : ∀ body ∈ written, body.length + lengthSize ≤ maxLength) (rest : Bytes) :
    bodies (written.flatMap encode ++ rest) = written ++ bodies rest ∧
      remainder (written.flatMap encode ++ rest) = remainder rest := by
  induction written with
  | nil => exact ⟨rfl, rfl⟩
  | cons body later ih =>
    obtain ⟨bodiesEq, remainderEq⟩ := ih fun other mem => fits other (List.mem_cons_of_mem _ mem)
    have here := front_encode_append (fits body List.mem_cons_self) (later.flatMap encode ++ rest)
    obtain ⟨firstBodies, firstRemainder⟩ := split_of_framed here
    rw [List.flatMap_cons, List.append_assoc, firstBodies, firstRemainder, bodiesEq, remainderEq]
    exact ⟨rfl, rfl⟩

/-- A frame that is too long for a reader is refused by its length. -/
theorem front_encode_append_of_large
    (small : body.length + lengthSize < LittleEndian.capacity lengthSize)
    (large : maxLength < body.length + lengthSize) (rest : Bytes) :
    front (encode body ++ rest) = .refused (.tooLarge (body.length + lengthSize) maxLength) := by
  have length : (encode body ++ rest).length = body.length + lengthSize + rest.length := by
    rw [List.length_append, length_encode]
  unfold front
  simp only [announced_encode small]
  rw [if_neg (by omega), if_pos large]

/-- Part of a frame is no frame, and has none at its front. -/
theorem unframed_of_prefix {cut : Bytes}
    (small : body.length + lengthSize < LittleEndian.capacity lengthSize)
    (isPrefix : cut <+: encode body) (strict : cut ≠ encode body) : Unframed cut := by
  intro other rest here
  obtain ⟨fits, rfl⟩ := eq_encode_append_of_front here
  obtain ⟨missing, eq⟩ := isPrefix
  have same := announced_encode (lt_capacity_of_le_maxLength fits) (rest ++ missing)
  rw [← List.append_assoc, eq] at same
  have length := announced_encode small []
  rw [List.append_nil, same] at length
  apply strict
  have total := congrArg List.length eq
  rw [List.length_append, List.length_append, length_encode, length_encode, length] at total
  have none : missing = [] := List.eq_nil_of_length_eq_zero (by omega)
  rw [← eq, none, List.append_nil]

/-- Whether a reader takes a frame of this length. -/
def readable (body : Bytes) : Bool := body.length + lengthSize ≤ maxLength

/-- A reader finds the frames that were written, up to the first that is too long for it. -/
theorem bodies_frames_append {written : List Bytes} {rest : Bytes}
    (small : ∀ body ∈ written, body.length + lengthSize < LittleEndian.capacity lengthSize)
    (none : Unframed rest) :
    bodies (written.flatMap encode ++ rest) = written.takeWhile readable := by
  induction written with
  | nil => exact none.split.1
  | cons body later ih =>
    have here := small body List.mem_cons_self
    rw [List.flatMap_cons, List.append_assoc]
    by_cases fits : body.length + lengthSize ≤ maxLength
    · obtain ⟨bodiesEq, -⟩ := split_of_framed
        (front_encode_append fits (later.flatMap encode ++ rest))
      rw [bodiesEq, ih fun other mem => small other (List.mem_cons_of_mem body mem)]
      have taken : readable body = true := decide_eq_true fits
      exact (List.takeWhile_cons_of_pos taken).symm
    · have refused := front_encode_append_of_large here (Nat.lt_of_not_le fits)
        (later.flatMap encode ++ rest)
      have unframed : Unframed (encode body ++ (later.flatMap encode ++ rest)) := by
        intro other after framed
        rw [refused] at framed
        cases framed
      rw [unframed.split.1]
      have left : ¬ readable body = true := mt of_decide_eq_true fits
      exact (List.takeWhile_cons_of_neg left).symm

/-! ## Cuts -/

/-- A cut leaves a length that no frame has as it is, if it leaves all of it. -/
theorem front_take_refused {k : Nat} (here : front bytes = .refused e) (enough : lengthSize ≤ k) :
    front (bytes.take k) = .refused e := by
  obtain ⟨present, bad⟩ := front_refused here
  have length : ¬ (bytes.take k).length < lengthSize := by
    rw [List.length_take]
    omega
  unfold front
  simp only [announced_take enough]
  rw [if_neg length]
  rcases bad with ⟨large, rfl⟩ | ⟨small, tiny, rfl⟩
  · rw [if_pos large]
  · rw [if_neg (by omega), if_pos tiny]

/-- A length that no frame has is not made by a cut. -/
theorem front_refused_of_take {k : Nat} (here : front (bytes.take k) = .refused e) :
    front bytes = .refused e ∧ lengthSize ≤ k := by
  obtain ⟨present, bad⟩ := front_refused here
  rw [List.length_take] at present
  have enough : lengthSize ≤ k := by omega
  rw [announced_take enough] at bad
  refine ⟨?_, enough⟩
  unfold front
  dsimp only
  rw [if_neg (by omega)]
  rcases bad with ⟨large, rfl⟩ | ⟨small, tiny, rfl⟩
  · rw [if_pos large]
  · rw [if_neg (by omega), if_pos tiny]

/-- The frames within a cut stand at the front of the whole, and the remainder of the cut is cut
from what follows them. -/
theorem eq_frames_append_of_take {k : Nat} (within : k ≤ bytes.length) :
    ∃ back, bytes = (bodies (bytes.take k)).flatMap encode ++ back ∧
      extent (bodies (bytes.take k)) ≤ k ∧
      remainder (bytes.take k) = back.take (k - extent (bodies (bytes.take k))) := by
  obtain ⟨eq, -, -⟩ := eq_frames_append_remainder (bytes.take k)
  have length := congrArg List.length eq
  rw [List.length_take, Nat.min_eq_left within, List.length_append, length_flatMap_encode] at length
  refine ⟨remainder (bytes.take k) ++ bytes.drop k, ?_, by omega, ?_⟩
  · rw [← List.append_assoc, ← eq, List.take_append_drop]
  · rw [List.take_left' (by omega)]

end Frame

end CallTrace
