import CallTrace.Proofs.Stream.Intake

/-!
What `Frame.send` does to a transport, whatever its script. `Sink.Calls` has the write calls of a
run in order, with what each was offered and how it was answered, and `Sink.Offers` says that each
was offered all that was unsent, and was followed by another only if it accepted some of it or was
interrupted.

`send_delivers_prefix` reads off these calls what was delivered, how the attempt ends, and whether
the transport was flushed.
-/

namespace CallTrace

namespace Sink

/-! ## Write calls -/

/-- A write call: the bytes that it was offered, and its answer. -/
structure WriteCall where
  offered : Bytes
  answer : Except Failure Bytes

namespace WriteCall

/-- The bytes that the call accepted. -/
def taken (call : WriteCall) : Bytes :=
  match call.answer with
  | .ok front => front
  | .error _ => []

/-- Whether another call may follow: the call accepted some bytes, or was interrupted. -/
def GoesOn (call : WriteCall) : Prop :=
  call.answer = .error .interrupted ∨ ∃ front, front ≠ [] ∧ call.answer = .ok front

end WriteCall

/-- Write calls one after another, from one transport to another. -/
inductive Calls : Sink → List WriteCall → Sink → Prop
  | none {w : Sink} : Calls w [] w
  | next {w v u : Sink} {offered : Bytes} {answer : Except Failure Bytes} {later : List WriteCall} :
    w.write offered = (answer, v) → Calls v later u → Calls w (⟨offered, answer⟩ :: later) u

/-- Whether calls are offered what is unsent of some bytes, each behind one that allows for it, and
none when nothing is unsent. -/
def Offers : Bytes → List WriteCall → Prop
  | _, [] => True
  | bytes, call :: later =>
    bytes ≠ [] ∧ call.offered = bytes ∧ (later ≠ [] → call.GoesOn) ∧
      Offers (bytes.drop call.taken.length) later

/-- All bytes that some calls accepted. -/
def delivered (log : List WriteCall) : Bytes := log.flatMap WriteCall.taken

/-- How many interruptions are still to come. -/
def interruptions (w : Sink) : Nat := w.failures.countP fun planned => planned.failure = .interrupted

variable {w v u : Sink} {bytes front : Bytes} {log : List WriteCall} {stop : WriteEnd}

/-- The calls of `writeAll`, and how it ends: with nothing unsent, with a call that accepted
nothing, or with one that failed for good. -/
inductive Pushes : Sink → Bytes → List WriteCall → WriteEnd → Sink → Prop
  | complete {w : Sink} : Pushes w [] [] .complete w
  | refused {w v : Sink} {bytes : Bytes} :
    bytes ≠ [] → w.write bytes = (.ok [], v) → Pushes w bytes [⟨bytes, .ok []⟩] .refused v
  | fault {w v : Sink} {bytes : Bytes} {text : String} :
    bytes ≠ [] → w.write bytes = (.error (.fault text), v) →
    Pushes w bytes [⟨bytes, .error (.fault text)⟩] (.fault text) v
  | accepted {w v u : Sink} {bytes front : Bytes} {log : List WriteCall} {stop : WriteEnd} :
    bytes ≠ [] → front ≠ [] → w.write bytes = (.ok front, v) →
    Pushes v (bytes.drop front.length) log stop u →
    Pushes w bytes (⟨bytes, .ok front⟩ :: log) stop u
  | interrupted {w v u : Sink} {bytes : Bytes} {log : List WriteCall} {stop : WriteEnd} :
    bytes ≠ [] → w.write bytes = (.error .interrupted, v) → Pushes v bytes log stop u →
    Pushes w bytes (⟨bytes, .error .interrupted⟩ :: log) stop u

theorem pushes_writeAll (w : Sink) (bytes : Bytes) :
    ∃ log, Pushes w bytes log (w.writeAll bytes).1 (w.writeAll bytes).2 := by
  fun_induction writeAll w bytes with
  | case1 w bytes empty =>
    obtain rfl := List.isEmpty_iff.1 empty
    exact ⟨[], .complete⟩
  | case2 w bytes some front v outcome empty =>
    obtain rfl := List.isEmpty_iff.1 empty
    exact ⟨_, .refused (mt List.isEmpty_iff.2 some) outcome⟩
  | case3 w bytes some front v outcome taken ih =>
    rcases ih with ⟨log, pushes⟩
    exact ⟨_, .accepted (mt List.isEmpty_iff.2 some) (mt List.isEmpty_iff.2 taken) outcome pushes⟩
  | case4 w bytes some v outcome ih =>
    rcases ih with ⟨log, pushes⟩
    exact ⟨_, .interrupted (mt List.isEmpty_iff.2 some) outcome pushes⟩
  | case5 w bytes some text v outcome =>
    exact ⟨_, .fault (mt List.isEmpty_iff.2 some) outcome⟩

/-! ## What the calls come to -/

theorem Pushes.calls (pushes : Pushes w bytes log stop v) : w.Calls log v := by
  induction pushes with
  | complete => exact .none
  | refused _ outcome => exact .next outcome .none
  | fault _ outcome => exact .next outcome .none
  | accepted _ _ outcome _ ih => exact .next outcome ih
  | interrupted _ outcome _ ih => exact .next outcome ih

theorem Pushes.offers (pushes : Pushes w bytes log stop v) : Offers bytes log := by
  induction pushes with
  | complete => trivial
  | refused some _ => exact ⟨some, rfl, nofun, trivial⟩
  | fault some _ => exact ⟨some, rfl, nofun, trivial⟩
  | accepted some taken _ _ ih => exact ⟨some, rfl, fun _ => .inr ⟨_, taken, rfl⟩, ih⟩
  | interrupted some _ _ ih => exact ⟨some, rfl, fun _ => .inl rfl, ih⟩

/-- What the calls accept is a front of the bytes, and all of them exactly at a complete end. -/
theorem Pushes.delivered_prefix (pushes : Pushes w bytes log stop v) :
    delivered log <+: bytes ∧ (delivered log = bytes ↔ stop = .complete) := by
  induction pushes with
  | complete => exact ⟨List.prefix_rfl, iff_of_true rfl rfl⟩
  | refused some _ => exact ⟨List.nil_prefix, iff_of_false some.symm nofun⟩
  | fault some _ => exact ⟨List.nil_prefix, iff_of_false some.symm nofun⟩
  | @accepted w v u bytes front log stop _ _ outcome _ ih =>
    rcases ih with ⟨isPrefix, all⟩
    have split := write_ok_append outcome
    have more : delivered (⟨bytes, .ok front⟩ :: log) = front ++ delivered log := rfl
    rw [more]
    constructor
    · rw [← split]
      exact (List.prefix_append_right_inj front).2 isPrefix
    · rw [← all]
      constructor
      · intro whole
        exact List.append_cancel_left (whole.trans split.symm)
      · intro rest
        rw [rest, split]
  | interrupted _ _ _ ih => exact ih

theorem Calls.accepted (calls : w.Calls log v) :
    v.accepted.toList = w.accepted.toList ++ delivered log := by
  induction calls with
  | none => exact (List.append_nil _).symm
  | @next w v u offered answer later outcome _ ih =>
    have more : delivered (⟨offered, answer⟩ :: later)
      = WriteCall.taken ⟨offered, answer⟩ ++ delivered later := rfl
    rw [ih, more, ← List.append_assoc]
    congr 1
    cases answer with
    | ok front => exact write_ok_accepted outcome
    | error failure =>
      rw [write_error_accepted outcome]
      exact (List.append_nil _).symm

/-- Each call counts, and no write call flushes. -/
theorem Calls.counts (calls : w.Calls log v) :
    v.calls = w.calls + log.length ∧ v.flushes = w.flushes ∧ v.flushFailure = w.flushFailure := by
  induction calls with
  | none => exact ⟨rfl, rfl, rfl⟩
  | @next w v u offered answer later outcome _ ih =>
    rcases ih with ⟨calls, flushes, failure⟩
    have call := w.call_write offered
    rw [outcome] at call
    rw [calls, flushes, failure, List.length_cons]
    cases call with
    | accepted => exact ⟨by simp only [accept]; omega, rfl, rfl⟩
    | failed => exact ⟨by dsimp only; omega, rfl, rfl⟩

/-- The loop ends: every call of it sends a byte or spends an interruption, or is the last one and
leaves a byte unsent. -/
theorem Pushes.length_le (pushes : Pushes w bytes log stop v) :
    log.length ≤ bytes.length + w.interruptions := by
  induction pushes with
  | complete => exact Nat.zero_le _
  | refused some _ =>
    have := List.length_pos_iff.2 some
    rw [List.length_singleton]
    omega
  | fault some _ =>
    have := List.length_pos_iff.2 some
    rw [List.length_singleton]
    omega
  | @accepted w v u bytes front log stop some taken outcome _ ih =>
    have rest := congrArg List.length (write_ok_append outcome)
    have positive := List.length_pos_iff.2 taken
    rw [List.length_append] at rest
    rw [interruptions, write_ok_failures outcome, ← interruptions] at ih
    rw [List.length_cons]
    omega
  | @interrupted w v u bytes log stop some outcome _ ih =>
    have spent : w.interruptions = v.interruptions + 1 := by
      have call := w.call_write bytes
      rw [outcome] at call
      cases call with
      | failed here retryable _ =>
        rw [interruptions, here, List.countP_cons, if_pos (decide_eq_true retryable)]
        rfl
    rw [List.length_cons]
    omega

/-! ## How the calls end -/

theorem Pushes.refused_iff (pushes : Pushes w bytes log stop v) :
    stop = .refused ↔ ∃ call ∈ log, call.answer = .ok [] := by
  induction pushes with
  | complete => exact iff_of_false nofun nofun
  | refused _ _ => exact iff_of_true rfl ⟨_, List.mem_cons_self, rfl⟩
  | fault _ _ => simp
  | accepted _ taken _ _ ih => simp [ih, taken]
  | interrupted _ _ _ ih => simp [ih]

theorem Pushes.fault_iff (pushes : Pushes w bytes log stop v) (text : String) :
    stop = .fault text ↔ ∃ call ∈ log, call.answer = .error (.fault text) := by
  induction pushes with
  | complete => exact iff_of_false nofun nofun
  | refused _ _ => simp
  | fault _ _ => simp
  | accepted _ _ _ _ ih => simp [ih]
  | interrupted _ _ _ ih => simp [ih]

theorem Pushes.eq_nil (pushes : Pushes w bytes log stop v) (empty : bytes = []) : log = [] := by
  cases pushes with
  | complete => rfl
  | refused some _ => exact absurd empty some
  | fault some _ => exact absurd empty some
  | accepted some _ _ _ => exact absurd empty some
  | interrupted some _ _ => exact absurd empty some

/-- A flush is counted, and moves no bytes. -/
theorem flush_counts (w : Sink) :
    w.flush.2.accepted = w.accepted ∧ w.flush.2.calls = w.calls ∧
      w.flush.2.flushes = w.flushes + 1 := by
  unfold flush
  cases w.flushFailure w.flushes <;> exact ⟨rfl, rfl, rfl⟩

end Sink

namespace Frame

open Sink

/-! ## Calls and a flush -/

/-- How an attempt to send some bytes ends, by its write calls and the transport behind them. -/
structure Sent (w : Sink) (bytes : Bytes) (log : List WriteCall) (u : Sink)
    (result : Except FrameError Unit) (v : Sink) : Prop where
  delivered_prefix : delivered log <+: bytes
  accepted : v.accepted.toList = w.accepted.toList ++ delivered log
  calls : v.calls = w.calls + log.length
  /-- One flush follows if all bytes were delivered, and none otherwise. -/
  flushes : v.flushes = w.flushes + if delivered log = bytes then 1 else 0
  after : v = if delivered log = bytes then u.flush.2 else u
  ok_iff : result = .ok () ↔ delivered log = bytes ∧ u.flush.1 = .ok ()
  broken_iff : result = .error .connectionBroken ↔ ∃ call ∈ log, call.answer = .ok []
  io_iff : ∀ text, result = .error (.io text) ↔
    (∃ call ∈ log, call.answer = .error (.fault text)) ∨
      delivered log = bytes ∧ ∃ failure, u.flush.1 = .error failure ∧ failure.text = text
  /-- A call that accepted nothing, or failed for good, leaves some of the bytes unsent. -/
  strict : (∃ call ∈ log, call.answer = .ok [] ∨ ∃ text, call.answer = .error (.fault text)) →
    delivered log ≠ bytes
  no_calls : bytes = [] → log = []
  cases : result = .ok () ∨ result = .error .connectionBroken ∨ ∃ text, result = .error (.io text)

variable {w u v : Sink} {bytes : Bytes} {log : List WriteCall} {stop : WriteEnd}

/-- What follows the calls of `writeAll`. -/
def conclude (stop : WriteEnd) (u : Sink) : Except FrameError Unit × Sink :=
  match stop with
  | .refused => (.error .connectionBroken, u)
  | .fault text => (.error (.io text), u)
  | .complete =>
    (match u.flush.1 with
      | .ok () => .ok ()
      | .error failure => .error (.io failure.text), u.flush.2)

theorem send_eq_conclude (w : Sink) (bytes : Bytes) :
    send w bytes = conclude (w.writeAll bytes).1 (w.writeAll bytes).2 := by
  unfold send conclude
  cases w.writeAll bytes with
  | mk stop u =>
    cases stop with
    | refused => rfl
    | fault text => rfl
    | complete =>
      dsimp only
      cases u.flush with
      | mk flushed v => cases flushed <;> rfl

/-- How the calls end decides how the attempt does. -/
theorem sent_of_pushes (pushes : Pushes w bytes log stop u) :
    Sent w bytes log u (conclude stop u).1 (conclude stop u).2 := by
  rcases pushes.delivered_prefix with ⟨isPrefix, complete⟩
  rcases pushes.calls.counts with ⟨calls, flushes, -⟩
  have accepted := pushes.calls.accepted
  have broken := pushes.refused_iff
  have faulted := pushes.fault_iff
  have strict : (∃ call ∈ log, call.answer = .ok [] ∨ ∃ text, call.answer = .error (.fault text)) →
      delivered log ≠ bytes := by
    rintro ⟨call, mem, nothing | ⟨text, failed⟩⟩ all
    · cases (complete.1 all).symm.trans (broken.2 ⟨call, mem, nothing⟩)
    · cases (complete.1 all).symm.trans ((faulted text).2 ⟨call, mem, failed⟩)
  have quiet : bytes = [] → log = [] := pushes.eq_nil
  cases stop with
  | refused =>
    have unsent : delivered log ≠ bytes := mt complete.1 nofun
    refine ⟨isPrefix, accepted, calls, ?_, ?_, ?_, ?_, fun text => ?_, strict, quiet,
      .inr (.inl rfl)⟩
    · rwa [if_neg unsent]
    · rw [if_neg unsent, conclude]
    · exact iff_of_false nofun fun all => unsent all.1
    · exact iff_of_true rfl (broken.1 rfl)
    · rw [← faulted]
      exact iff_of_false nofun (by rintro (⟨⟨⟩⟩ | all); exact unsent all.1)
  | fault text =>
    have unsent : delivered log ≠ bytes := mt complete.1 nofun
    refine ⟨isPrefix, accepted, calls, ?_, ?_, ?_, ?_, fun other => ?_, strict, quiet,
      .inr (.inr ⟨text, rfl⟩)⟩
    · rwa [if_neg unsent]
    · rw [if_neg unsent, conclude]
    · exact iff_of_false nofun fun all => unsent all.1
    · rw [← broken]
      exact iff_of_false nofun nofun
    · rw [← faulted]
      simp [conclude, unsent]
  | complete =>
    have all : delivered log = bytes := complete.2 rfl
    rcases u.flush_counts with ⟨same, made, flushed⟩
    have unrefused : ¬ ∃ call ∈ log, call.answer = .ok [] := mt broken.2 nofun
    have unfaulted : ∀ text, ¬ ∃ call ∈ log, call.answer = .error (.fault text) :=
      fun text => mt (faulted text).2 nofun
    rw [conclude]
    refine ⟨isPrefix, same ▸ accepted, made.trans calls, ?_, ?_, ?_, ?_, fun text => ?_, strict,
      quiet, ?_⟩
    · rw [if_pos all, ← flushes]
      exact flushed
    · rw [if_pos all]
    · cases u.flush.1 <;> simp [all]
    · refine iff_of_false ?_ unrefused
      cases u.flush.1 <;> nofun
    · cases u.flush.1 <;> simp [all, unfaulted text]
    · cases u.flush.1 <;> simp

/-- What is delivered is a front of the bytes, whatever the transport does; success says that it is
all of them and that the flush behind them succeeded, and each error says which call it comes from.
The calls are no more than the bytes and the interruptions. -/
theorem send_delivers_prefix (w : Sink) (bytes : Bytes) :
    ∃ log u, w.Calls log u ∧ Offers bytes log ∧
      log.length ≤ bytes.length + w.interruptions ∧
      Sent w bytes log u (send w bytes).1 (send w bytes).2 := by
  rcases pushes_writeAll w bytes with ⟨log, pushes⟩
  refine ⟨log, _, pushes.calls, pushes.offers, pushes.length_le, ?_⟩
  rw [send_eq_conclude]
  exact sent_of_pushes pushes

end Frame

end CallTrace
