import CallTrace.Proofs.Frame.Grammar
import CallTrace.Proofs.Sender.Log
import CallTrace.Proofs.Stream.Intake

/-!
Frames cut by a failing transport. A sender keeps no record of a cut, so whether anything follows it
on the wire is up to the transport and to the caller (`sealedAfterCut_iff`,
`sealedAfterCut_of_succeeded`). `bodies_of_frames` says what a reader gets as long as nothing does:
the frames that were written whole, and no byte of the cut one.
-/

namespace CallTrace

namespace Attempt

variable {a : Attempt} {body : Bytes}

/-- Whether the attempt left part of its frame in the transport, but not all of it. -/
def Cut (a : Attempt) : Prop :=
  a.front ≠ [] ∧ ∀ body, a.body? = some body → a.front ≠ Frame.encode body

/-- The body of the frame, if all of the frame was left in the transport. -/
def whole? (a : Attempt) : Option Bytes :=
  a.body?.bind fun body => if a.front = Frame.encode body then some body else none

theorem encode_ne_nil (body : Bytes) : Frame.encode body ≠ [] := by
  intro none
  have := congrArg List.length none
  rw [Frame.length_encode] at this
  have size : Frame.lengthSize = 4 := rfl
  rw [List.length_nil] at this
  omega

theorem Cut.not_succeeded (cut : a.Cut) : ¬ a.Succeeded := by
  intro succeeded
  obtain ⟨body, here, all⟩ := succeeded.written
  exact cut.2 body here all

/-- An attempt leaves nothing, or part of its frame, or all of it. -/
theorem front_cases (a : Attempt) :
    (a.front = [] ∧ a.whole? = none) ∨
      (∃ body, a.body? = some body ∧ a.Cut ∧ a.whole? = none) ∨
      ∃ body, a.body? = some body ∧ a.front = Frame.encode body ∧ a.whole? = some body := by
  unfold whole? Cut
  cases here : a.body? with
  | none => exact .inl ⟨(front_of_no_body here).1, rfl⟩
  | some body =>
    rw [Option.bind_some]
    by_cases all : a.front = Frame.encode body
    · exact .inr (.inr ⟨body, rfl, all, if_pos all⟩)
    · rw [if_neg all]
      by_cases none : a.front = []
      · exact .inl ⟨none, rfl⟩
      · refine .inr (.inl ⟨body, rfl, ⟨none, ?_⟩, rfl⟩)
        intro other same
        cases same
        exact all

theorem whole?_of_front_nil (empty : a.front = []) : a.whole? = none := by
  rcases a.front_cases with ⟨-, whole⟩ | ⟨-, -, -, whole⟩ | ⟨body, -, all, -⟩
  · exact whole
  · exact whole
  · rw [empty] at all
    exact absurd all.symm (encode_ne_nil body)

/-- An attempt to write a frame leaves nothing exactly if the transport refuses. -/
theorem front_eq_nil_iff (some : a.body? = some body) : a.front = [] ↔ a.sink.Refuses := by
  have after : a.after.accepted = (a.sink.writeAll (Frame.encode body)).2.accepted := by
    rw [Attempt.after, outcome_of_body some, Frame.accepted_send]
  rw [← Sink.writeAll_accepted_eq_iff (encode_ne_nil body), ← after, ← Array.toList_inj,
    a.accepted_after, List.append_right_eq_self]

end Attempt

/-! ## What follows a cut -/

/-- Whether nothing is written behind a frame that was cut. -/
def SealedAfterCut (log : List Attempt) : Prop :=
  ∀ before a after, log = before ++ a :: after → a.Cut → ∀ b ∈ after, b.front = []

/-- Whether the transport refuses whatever is to be written behind a frame that was cut. -/
def RefusedAfterCut (log : List Attempt) : Prop :=
  ∀ before a after, log = before ++ a :: after → a.Cut → ∀ b ∈ after, b.body? ≠ none →
    b.sink.Refuses

theorem sealedAfterCut_iff {log : List Attempt} : SealedAfterCut log ↔ RefusedAfterCut log := by
  constructor
  · intro closed before a after eq cut b mem some
    have none := closed before a after eq cut b mem
    obtain ⟨body, here⟩ := Option.ne_none_iff_exists'.1 some
    exact (Attempt.front_eq_nil_iff here).1 none
  · intro refused before a after eq cut b mem
    cases here : b.body? with
    | none => exact (Attempt.front_of_no_body here).1
    | some body =>
      refine (Attempt.front_eq_nil_iff here).2 (refused before a after eq cut b mem ?_)
      rw [here]
      exact Option.some_ne_none body

theorem SealedAfterCut.tail {a : Attempt} {later : List Attempt}
    (closed : SealedAfterCut (a :: later)) : SealedAfterCut later := by
  intro before b after eq
  exact closed (a :: before) b after (by rw [eq, List.cons_append])

/-- As long as nothing follows a cut, the accepted bytes are frames, and part of one frame at
most. -/
theorem SealedAfterCut.frames {log : List Attempt} (closed : SealedAfterCut log) :
    ∃ rest, log.flatMap Attempt.front
        = (log.filterMap Attempt.whole?).flatMap Frame.encode ++ rest ∧
      (rest = [] ∨ ∃ a ∈ log, a.Cut ∧ rest = a.front) := by
  induction log with
  | nil => exact ⟨[], rfl, .inl rfl⟩
  | cons a later ih =>
    rw [List.flatMap_cons]
    obtain ⟨rest, eq, tail⟩ := ih closed.tail
    have tail' : rest = [] ∨ ∃ b ∈ a :: later, b.Cut ∧ rest = b.front := by
      rcases tail with none | ⟨b, mem, cut⟩
      · exact .inl none
      · exact .inr ⟨b, List.mem_cons_of_mem a mem, cut⟩
    rcases a.front_cases with ⟨none, whole⟩ | ⟨body, -, cut, whole⟩ | ⟨body, -, all, whole⟩
    · rw [none, List.nil_append, List.filterMap_cons_none whole]
      exact ⟨rest, eq, tail'⟩
    · -- Nothing else was accepted behind the cut.
      have silent := closed [] a later rfl cut
      have nothing : later.flatMap Attempt.front = [] := List.flatMap_eq_nil_iff.2 silent
      have wholes : later.filterMap Attempt.whole? = [] := by
        apply List.filterMap_eq_nil_iff.2
        intro b mem
        exact Attempt.whole?_of_front_nil (silent b mem)
      rw [nothing, List.append_nil, List.filterMap_cons_none whole, wholes]
      exact ⟨a.front, rfl, .inr ⟨a, List.mem_cons_self, cut, rfl⟩⟩
    · rw [all, eq, List.filterMap_cons_some whole, List.flatMap_cons]
      exact ⟨rest, (List.append_assoc ..).symm, tail'⟩

theorem Attempt.Cut.unframed {a : Attempt} (cut : a.Cut) : Frame.Unframed a.front := by
  obtain ⟨some, strict⟩ := cut
  cases here : a.body? with
  | none => exact absurd (Attempt.front_of_no_body here).1 some
  | some body =>
    obtain ⟨-, small⟩ := Attempt.body?_eq_some_iff.1 here
    exact Frame.unframed_of_prefix small (Attempt.front_of_body here).1 (strict body here)

/-- A reader finds the frames that were written whole, up to the first that is too long for it. -/
theorem bodies_of_frames {log : List Attempt} {rest : Bytes}
    (eq : log.flatMap Attempt.front = (log.filterMap Attempt.whole?).flatMap Frame.encode ++ rest)
    (tail : rest = [] ∨ ∃ a ∈ log, a.Cut ∧ rest = a.front) :
    Frame.bodies (log.flatMap Attempt.front)
      = (log.filterMap Attempt.whole?).takeWhile Frame.readable := by
  have small : ∀ body ∈ log.filterMap Attempt.whole?,
      body.length + Frame.lengthSize < LittleEndian.capacity Frame.lengthSize := by
    intro body mem
    obtain ⟨a, -, whole⟩ := List.mem_filterMap.1 mem
    rcases a.front_cases with ⟨-, none⟩ | ⟨-, -, -, none⟩ | ⟨other, here, -, some⟩
    · rw [none] at whole
      cases whole
    · rw [none] at whole
      cases whole
    · rw [some] at whole
      cases whole
      exact (Attempt.body?_eq_some_iff.1 here).2
  have unframed : Frame.Unframed rest := by
    rcases tail with rfl | ⟨a, -, cut, rfl⟩
    · intro body after here
      cases here
    · exact cut.unframed
  rw [eq, Frame.bodies_frames_append small unframed]

/-! ## Callers that stop -/

theorem mem_dropLast_append {α : Type} {x : α} {front back : List α}
    (mem : x ∈ (front ++ back).dropLast) : x ∈ front ∨ x ∈ back.dropLast := by
  cases back with
  | nil =>
    rw [List.append_nil] at mem
    exact .inl (List.dropLast_subset _ mem)
  | cons y rest =>
    rw [List.dropLast_append_of_ne_nil (List.cons_ne_nil y rest)] at mem
    exact List.mem_append.1 mem

/-- If a run goes on only after successes, only its last attempt can have failed. -/
theorem Sender.succeeded_of_ok {s : Sender} {requests : List Request}
    (ok : ∀ result ∈ (s.run requests).1.dropLast, result = .ok ()) :
    ∀ a ∈ (s.log requests).dropLast, a.Succeeded := by
  induction requests generalizing s with
  | nil =>
    intro a mem
    cases mem
  | cons request later ih =>
    intro a mem
    rw [log] at mem
    have result : (s.perform request).1 = (sendAll s.sink (s.prepare request).1).1 := by
      rw [perform_eq]
    cases later with
    | nil =>
      rw [log, List.append_nil] at mem
      rcases attempts_outcome s.sink (s.prepare request).1 with
        ⟨-, -, each⟩ | ⟨-, done, last, eq, each, -, -⟩
      · exact each a (List.dropLast_subset _ mem)
      · rw [eq, List.dropLast_concat] at mem
        exact each a mem
    | cons next rest =>
      have both : (s.run (request :: next :: rest)).1.dropLast
          = (s.perform request).1 :: ((s.perform request).2.run (next :: rest)).1.dropLast := by
        rw [run, run]
        rfl
      rw [both] at ok
      rcases mem_dropLast_append mem with mem | mem
      · rcases attempts_outcome s.sink (s.prepare request).1 with ⟨-, -, each⟩ | ⟨failed, -⟩
        · exact each a mem
        · rw [← result] at failed
          exact absurd (ok _ List.mem_cons_self) failed
      · exact ih (fun other mem => ok other (List.mem_cons_of_mem _ mem)) a mem

theorem sealedAfterCut_of_succeeded {log : List Attempt}
    (succeeded : ∀ a ∈ log.dropLast, a.Succeeded) : SealedAfterCut log := by
  rintro before a after rfl cut b mem
  have some : after ≠ [] := List.ne_nil_of_mem mem
  have inside : a ∈ (before ++ a :: after).dropLast := by
    rw [List.dropLast_append_of_ne_nil (List.cons_ne_nil a after),
      List.dropLast_cons_of_ne_nil some]
    exact List.mem_append_right before List.mem_cons_self
  exact absurd (succeeded a inside) cut.not_succeeded

namespace Sender

/-- What a run leaves on the wire: of each frame a front, and behind a cut one whatever the
transport still takes. -/
structure FramesOnWire (s : Sender) (requests : List Request) : Prop where
  accepted : (s.run requests).2.sink.accepted.toList
    = s.sink.accepted.toList ++ (s.log requests).flatMap Attempt.front
  fronts : ∀ a ∈ s.log requests, ∀ body, a.body? = some body →
    a.front <+: Frame.encode body ∧ (a.Succeeded → a.front = Frame.encode body)
  silent : ∀ a ∈ s.log requests, a.body? = none → a.front = []
  after : SealedAfterCut (s.log requests) ↔ RefusedAfterCut (s.log requests)
  frames : SealedAfterCut (s.log requests) → ∃ rest, (s.log requests).flatMap Attempt.front
      = ((s.log requests).filterMap Attempt.whole?).flatMap Frame.encode ++ rest ∧
    (rest = [] ∨ ∃ a ∈ s.log requests, a.Cut ∧ rest = a.front)
  bodies : SealedAfterCut (s.log requests) → Frame.bodies ((s.log requests).flatMap Attempt.front)
    = ((s.log requests).filterMap Attempt.whole?).takeWhile Frame.readable
  stopped : (∀ result ∈ (s.run requests).1.dropLast, result = .ok ()) →
    SealedAfterCut (s.log requests)

/-- The frames of a run stay apart as long as nothing follows a cut one, and nothing does if the
caller stops at the first failure. -/
theorem framesOnWire_run (s : Sender) (requests : List Request) : FramesOnWire s requests where
  accepted := s.accepted_run requests
  fronts := fun _ _ _ some => Attempt.front_of_body some
  silent := fun _ _ none => (Attempt.front_of_no_body none).1
  after := sealedAfterCut_iff
  frames := SealedAfterCut.frames
  bodies := by
    intro closed
    obtain ⟨rest, eq, tail⟩ := closed.frames
    exact bodies_of_frames eq tail
  stopped := fun ok => sealedAfterCut_of_succeeded (succeeded_of_ok ok)

/-- A sender whose transport fails once, within the first frame. -/
def cutOnce : Sender :=
  start (.scripted none none [(20, .fault "connection reset")] none) (.ofLists [] [] [] [])
    ⟨.zero, 0⟩

/-- Two notes. -/
def twoNotes : List Request := [⟨⟨.zero, 0⟩, .debug "a"⟩, ⟨⟨.zero, 0⟩, .debug "b"⟩]

/-- The second note is written behind the cut frame of the first. -/
theorem not_sealedAfterCut_log :
    ¬ ∀ (sink : Sink) (table : CallTable) (clock : Clock) (requests : List Request),
      SealedAfterCut ((start sink table clock).log requests) := by
  intro claim
  have closed : SealedAfterCut (cutOnce.log twoNotes) := claim _ _ _ _
  have left : (cutOnce.log twoNotes).map (fun a => (a.front.length, a.body?.map List.length))
      = [(20, some 50), (54, some 50)] := by decide +kernel
  obtain ⟨a, later, eq, first, left⟩ := List.map_eq_cons_iff.1 left
  obtain ⟨b, rest, eq', second, -⟩ := List.map_eq_cons_iff.1 left
  obtain ⟨aFront, aBody⟩ := Prod.mk.inj first
  obtain ⟨bFront, -⟩ := Prod.mk.inj second
  have cut : a.Cut := by
    refine ⟨?_, fun body here all => ?_⟩
    · intro none
      rw [none] at aFront
      cases aFront
    · rw [here] at aBody
      have length := Option.some.inj aBody
      rw [all, Frame.length_encode, length] at aFront
      cases aFront
  have none := closed [] a later eq cut b (by rw [eq']; exact List.mem_cons_self)
  rw [none] at bFront
  cases bFront

end Sender

end CallTrace
