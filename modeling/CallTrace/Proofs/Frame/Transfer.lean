import CallTrace.Proofs.Frame.Sending
import CallTrace.Proofs.Frame.Sequence

/-!
Frames from one transport to another. `writeEach` writes bodies one after another, and `written`
keeps those whose length has 32 bits, which are all that a writer can frame.

`writeEach_readAll` says what a transport that never fails accepts of them, and what a reader makes
of what it accepted: neither side's schedule can be seen, no boundary is lost, and the first body
that is too long for a reader is where it stops.
-/

namespace CallTrace.Frame

variable {w v : Sink} {s t : Source} {body : Bytes} {e : FrameError}

/-! ## One frame -/

/-- A body behind its length, whose four bytes count themselves, the least significant first. -/
def prefixed (body : Bytes) : Bytes :=
  let length := body.length + 4
  UInt8.ofNat length :: UInt8.ofNat (length / 2 ^ 8) :: UInt8.ofNat (length / 2 ^ 16) ::
    UInt8.ofNat (length / 2 ^ 24) :: body

theorem encode_eq_prefixed : encode = prefixed := by
  funext body
  have second : ∀ n : Nat, n / 256 / 256 = n / 2 ^ 16 := fun n => Nat.div_div_eq_div_mul ..
  have third : ∀ n : Nat, n / 2 ^ 16 / 256 = n / 2 ^ 24 := fun n => Nat.div_div_eq_div_mul ..
  unfold encode prefixed lengthSize
  simp only [LittleEndian.digits, second, third, List.cons_append, List.nil_append]
  rfl

/-- Whether a body's frame has a length of 32 bits. -/
def writable (body : Bytes) : Bool := body.length + lengthSize < 2 ^ 32

theorem capacity_lengthSize : LittleEndian.capacity lengthSize = 2 ^ 32 := by decide

theorem writable_of_le_maxLength (fits : body.length + lengthSize ≤ maxLength) :
    writable body = true := by
  have limit : maxLength = 20971520 := rfl
  exact decide_eq_true (by omega)

/-- What the writer of a frame answers if its transport never fails. -/
def answerTo (body : Bytes) : Except FrameError Unit :=
  if writable body then .ok () else .error (.tooLarge (body.length + lengthSize) maxLength)

theorem write_of_not_writable (long : ¬ writable body = true) (w : Sink) :
    write w body = (answerTo body, w) := by
  have length : LittleEndian.capacity lengthSize ≤ body.length + lengthSize := by
    rw [capacity_lengthSize]
    exact Nat.le_of_not_lt (mt decide_eq_true long)
  rw [write, if_pos length, answerTo, if_neg long]

/-- A flush follows what was sent. -/
theorem flushes_of_send_ok {bytes : Bytes} (outcome : send w bytes = (.ok (), v)) :
    v.flushes = w.flushes + 1 := by
  rcases w.pushes_writeAll bytes with ⟨log, pushes⟩
  have sent := sent_of_pushes pushes
  rw [← send_eq_conclude, outcome] at sent
  rw [sent.flushes, if_pos (sent.ok_iff.1 rfl).1]

theorem write_of_writable (takes : w.TakesAll) (short : writable body = true) :
    ∃ v, write w body = (answerTo body, v) ∧ v.TakesAll ∧
      v.accepted.toList = w.accepted.toList ++ prefixed body ∧ v.flushes = w.flushes + 1 := by
  have length : ¬ LittleEndian.capacity lengthSize ≤ body.length + lengthSize := by
    rw [capacity_lengthSize]
    exact Nat.not_le_of_lt (of_decide_eq_true short)
  rcases takes.send (encode body) with ⟨v, outcome, after, accepted⟩
  rw [encode_eq_prefixed] at accepted
  refine ⟨v, ?_, after, accepted, flushes_of_send_ok outcome⟩
  rw [write, if_neg length, outcome, answerTo, if_pos short]

/-! ## Many frames -/

/-- Write frames with the given bodies, one after another, whatever becomes of each: the answers,
and the transport afterwards. -/
def writeEach (w : Sink) : List Bytes → List (Except FrameError Unit) × Sink
  | [] => ([], w)
  | body :: later =>
    let (answer, v) := write w body
    let (answers, u) := writeEach v later
    (answer :: answers, u)

/-- The bodies that a writer can frame. -/
def written (bodies : List Bytes) : List Bytes := bodies.filter writable

theorem written_eq_self {bodies : List Bytes}
    (fits : ∀ body ∈ bodies, body.length + lengthSize ≤ maxLength) : written bodies = bodies :=
  List.filter_eq_self.2 fun body mem => writable_of_le_maxLength (fits body mem)

theorem writeEach_of_takesAll (takes : w.TakesAll) (bodies : List Bytes) :
    (writeEach w bodies).1 = bodies.map answerTo ∧
    (writeEach w bodies).2.accepted.toList
      = w.accepted.toList ++ (written bodies).flatMap prefixed ∧
    (writeEach w bodies).2.flushes = w.flushes + (written bodies).length := by
  induction bodies generalizing w with
  | nil => exact ⟨rfl, (List.append_nil _).symm, rfl⟩
  | cons body later ih =>
    by_cases short : writable body = true
    · rcases write_of_writable takes short with ⟨v, outcome, after, accepted, flushes⟩
      rcases ih after with ⟨answers, laterAccepted, laterFlushes⟩
      have more : written (body :: later) = body :: written later := List.filter_cons_of_pos short
      rw [writeEach, outcome, more]
      dsimp only
      rw [answers, laterAccepted, laterFlushes, accepted, flushes, List.flatMap_cons,
        List.length_cons]
      exact ⟨rfl, List.append_assoc .., by omega⟩
    · rcases ih takes with ⟨answers, laterAccepted, laterFlushes⟩
      have same : written (body :: later) = written later := List.filter_cons_of_neg short
      rw [writeEach, write_of_not_writable short, same]
      dsimp only
      rw [answers]
      exact ⟨rfl, laterAccepted, laterFlushes⟩

theorem readAllFrom_of_error (outcome : read s = (.error e, t)) (taken : Array Bytes) :
    readAllFrom s taken = (taken.toList, some e, t) := by
  rw [readAllFrom]
  split
  · next here =>
    rw [outcome] at here
    cases here
    rfl
  · next here =>
    rw [outcome] at here
    cases here
  · next here =>
    rw [outcome] at here
    cases here

/-- A reader stops at the first frame that is too long for it. -/
theorem readAll_of_large {front back : List Bytes}
    (fits : ∀ earlier ∈ front, earlier.length + lengthSize ≤ maxLength)
    (short : writable body = true) (large : maxLength < body.length + lengthSize)
    (serves : s.ServesAll ((front ++ body :: back).flatMap encode)) :
    ∃ t, readAll s = (front, some (.tooLarge (body.length + lengthSize) maxLength), t) := by
  rw [List.flatMap_append, List.flatMap_cons] at serves
  rcases readAllFrom_of_supplies fits (.ending serves) #[] with ⟨t, left, same⟩
  have small : body.length + lengthSize < LittleEndian.capacity lengthSize := by
    rw [capacity_lengthSize]
    exact of_decide_eq_true short
  rcases read_of_refused left (front_encode_append_of_large small large _) with ⟨u, outcome, -⟩
  refine ⟨u, ?_⟩
  rw [readAll, same, readAllFrom_of_error outcome]
  simp

/-- What is written one frame after another is read as it was written: all of it if every body fits
a reader, and else what comes before the first that does not. A body that cannot be framed leaves
no trace. -/
theorem writeEach_readAll (takes : w.TakesAll) (bodies : List Bytes) :
    (writeEach w bodies).1 = bodies.map answerTo ∧
    (writeEach w bodies).2.accepted.toList
      = w.accepted.toList ++ (written bodies).flatMap prefixed ∧
    (writeEach w bodies).2.flushes = w.flushes + (written bodies).length ∧
    ((∀ body ∈ bodies, body.length + lengthSize ≤ maxLength) →
      written bodies = bodies ∧ ∀ answer ∈ (writeEach w bodies).1, answer = .ok ()) ∧
    ∀ s : Source, s.ServesAll ((written bodies).flatMap prefixed) →
      ((∀ body ∈ written bodies, body.length + lengthSize ≤ maxLength) →
        ∃ t, readAll s = (written bodies, none, t)) ∧
      ∀ front body back, written bodies = front ++ body :: back →
        (∀ earlier ∈ front, earlier.length + lengthSize ≤ maxLength) →
        maxLength < body.length + lengthSize →
        ∃ t, readAll s = (front, some (.tooLarge (body.length + lengthSize) maxLength), t) := by
  rcases writeEach_of_takesAll takes bodies with ⟨answers, accepted, flushes⟩
  refine ⟨answers, accepted, flushes, ?_, ?_⟩
  · intro fits
    refine ⟨written_eq_self fits, ?_⟩
    rw [answers, List.forall_mem_map]
    intro body mem
    exact if_pos (writable_of_le_maxLength (fits body mem))
  · rw [← encode_eq_prefixed]
    intro s serves
    constructor
    · intro fits
      rcases readAll_of_servesAll fits serves with ⟨t, outcome, -⟩
      exact ⟨t, outcome⟩
    · intro front body back split fits large
      have framed : body ∈ written bodies := by
        rw [split]
        exact List.mem_append_right _ List.mem_cons_self
      rw [split] at serves
      exact readAll_of_large fits (List.mem_filter.1 framed).2 large serves

/-- A writer that is cut short and interrupted; an empty body, and one that is too long for a
reader, which stops in front of it. -/
theorem writeEach_readAll_of_long_third : ∃ long : Bytes, long.length = maxLength ∧
    (writeEach (.scripted (some 3) none [(2, .interrupted)] none) [[1, 2, 3], [], long, [9]]).1
      = [.ok (), .ok (), .ok (), .ok ()] ∧
    ∃ t, readAll (.ofBytes ([[1, 2, 3], [], long, [9]].flatMap prefixed) (some 7)
      [(5, .interrupted)])
        = ([[1, 2, 3], []], some (.tooLarge (maxLength + lengthSize) maxLength), t) := by
  rcases show ∃ long : Bytes, long.length = maxLength from
    ⟨List.replicate maxLength 0, List.length_replicate⟩ with ⟨long, length⟩
  have size : lengthSize = 4 := rfl
  have limit : maxLength = 20971520 := rfl
  have takes : (Sink.scripted (some 3) none [(2, .interrupted)] none).TakesAll :=
    Sink.takesAll_scripted (by decide) (by decide)
  have fits : writable long = true := decide_eq_true (by omega)
  have all : written [[1, 2, 3], [], long, [9]] = [[1, 2, 3], [], long, [9]] :=
    List.filter_eq_self.2 <| List.forall_mem_cons.2 ⟨rfl, List.forall_mem_cons.2 ⟨rfl,
      List.forall_mem_cons.2 ⟨fits, List.forall_mem_cons.2 ⟨rfl, nofun⟩⟩⟩⟩
  have serves : (Source.ofBytes ([[1, 2, 3], [], long, [9]].flatMap prefixed) (some 7)
      [(5, .interrupted)]).ServesAll ([[1, 2, 3], [], long, [9]].flatMap prefixed) :=
    Source.servesAll_ofBytes _ (by decide) (by decide)
  rcases writeEach_readAll takes [[1, 2, 3], [], long, [9]] with ⟨answers, -, -, -, reads⟩
  rw [all] at reads
  refine ⟨long, length, ?_, ?_⟩
  · have ok : answerTo long = .ok () := if_pos fits
    rw [answers, List.map_cons, List.map_cons, List.map_cons, ok]
    rfl
  · have stops := (reads _ serves).2 [[1, 2, 3], []] long [[9]] rfl (by simp [size, limit])
      (by omega)
    rwa [length] at stops

end CallTrace.Frame
