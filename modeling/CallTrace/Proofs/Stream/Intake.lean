import CallTrace.Frame.Writing

/-!
What a transport takes, whatever its schedule. `Refuses` is a transport that takes nothing of the
next bytes, as its script has it: `writeAll_accepted_eq_iff` says that nothing else makes `writeAll`
accept nothing. `TakesAll` is a transport that never fails; it may cut every call short and
interrupt any number of them, and `TakesAll.send` says that neither can be seen.
-/

namespace CallTrace

theorem leastLimit_eq_some_zero_iff {a b : Option Nat} :
    leastLimit a b = some 0 ↔ a = some 0 ∨ b = some 0 := by
  cases a with
  | none => simp [leastLimit]
  | some m =>
    cases b with
    | none => simp [leastLimit]
    | some n =>
      simp only [leastLimit, Option.some.injEq]
      omega

theorem takeUpTo_eq_nil_iff {α : Type} {limit : Option Nat} {xs : List α} (some : xs ≠ []) :
    takeUpTo limit xs = [] ↔ limit = .some 0 := by
  cases limit with
  | none => simp [takeUpTo, some]
  | some n => simp [takeUpTo, some]

namespace Sink

variable {w v : Sink} {bytes : Bytes}

/-! ## Transports that refuse -/

/-- Whether a call with so many calls before it, and no failure due, accepts nothing. -/
def Stalled (w : Sink) (calls : Nat) : Prop :=
  w.stall.map (· - w.accepted.size) = some 0 ∨ w.limit calls = some 0

/-- Whether calls accept nothing until one fails for good, or accepts nothing without a failure. -/
def RefusesFrom (w : Sink) : List PlannedFailure → Nat → Prop
  | [], calls => w.Stalled calls
  | planned :: later, calls =>
    if planned.position ≤ w.accepted.size ∧ planned.call ≤ calls then
      planned.failure = .interrupted → w.RefusesFrom later (calls + 1)
    else w.Stalled calls

/-- Whether the next bytes are refused. -/
def Refuses (w : Sink) : Prop := w.RefusesFrom w.failures w.calls

theorem accept_eq_nil_iff {room : Option Nat} (some : bytes ≠ []) (open' : room ≠ .some 0) :
    (w.accept room bytes).1 = [] ↔ w.Stalled w.calls := by
  unfold accept Stalled
  dsimp only
  rw [takeUpTo_eq_nil_iff some, leastLimit_eq_some_zero_iff, leastLimit_eq_some_zero_iff]
  constructor
  · rintro (here | stalled)
    · exact absurd here open'
    · exact stalled
  · exact .inr

theorem roomBefore_ne_zero (w : Sink) (planned : PlannedFailure) :
    w.roomBefore planned ≠ some 0 := by
  unfold roomBefore
  split
  · intro full
    cases full
  · intro full
    have := Option.some.inj full
    omega

/-- What one call does: it accepts bytes if no failure is due, and else it fails. -/
inductive Call (w : Sink) (bytes : Bytes) : Except Failure Bytes × Sink → Prop
  | accepted {room : Option Nat} : room ≠ some 0 → (w.Refuses ↔ w.Stalled w.calls) →
    Call w bytes (.ok (w.accept room bytes).1, (w.accept room bytes).2)
  | failed {planned : PlannedFailure} {failure : Failure} {later : List PlannedFailure} :
    w.failures = planned :: later → planned.failure = failure →
    planned.position ≤ w.accepted.size ∧ planned.call ≤ w.calls →
    Call w bytes (.error failure, { w with calls := w.calls + 1, failures := later })

theorem call_write (w : Sink) (bytes : Bytes) : w.Call bytes (w.write bytes) := by
  unfold write
  split
  · next none =>
    refine .accepted ?_ ?_
    · intro full
      cases full
    · unfold Refuses
      rw [none]
      exact Iff.rfl
  · next planned later here =>
    split
    · next due => exact .failed here rfl due
    · next early =>
      refine .accepted (w.roomBefore_ne_zero planned) ?_
      unfold Refuses
      rw [here, RefusesFrom, if_neg early]

theorem refusesFrom_congr (accepted : v.accepted = w.accepted) (stall : v.stall = w.stall)
    (limit : v.limit = w.limit) (failures : List PlannedFailure) (calls : Nat) :
    v.RefusesFrom failures calls ↔ w.RefusesFrom failures calls := by
  have stalled : ∀ calls, v.Stalled calls ↔ w.Stalled calls := by
    intro calls
    unfold Stalled
    rw [accepted, stall, limit]
  induction failures generalizing calls with
  | nil => exact stalled calls
  | cons planned later ih =>
    rw [RefusesFrom, RefusesFrom, accepted]
    split
    · exact imp_congr_right fun _ => ih _
    · exact stalled calls

/-- A transport accepts nothing of some bytes exactly if it refuses. -/
theorem writeAll_accepted_eq_iff (some : bytes ≠ []) :
    (w.writeAll bytes).2.accepted = w.accepted ↔ w.Refuses := by
  fun_induction writeAll w bytes with
  | case1 w bytes empty => exact absurd (List.isEmpty_iff.1 empty) some
  | case2 w bytes ne front v outcome empty =>
    have call := w.call_write bytes
    rw [outcome] at call
    have none : front = [] := List.isEmpty_iff.1 empty
    cases call with
    | accepted open' refuses =>
      refine ⟨fun _ => refuses.2 ((accept_eq_nil_iff some open').1 none), fun _ => ?_⟩
      have accepted := write_ok_accepted outcome
      rw [none, List.append_nil] at accepted
      exact Array.toList_inj.1 accepted
  | case3 w bytes ne front v outcome nonempty ih =>
    have call := w.call_write bytes
    rw [outcome] at call
    have taken : front ≠ [] := fun none => nonempty (List.isEmpty_iff.2 none)
    have grown : (v.writeAll (bytes.drop front.length)).2.accepted ≠ w.accepted := by
      intro same
      obtain ⟨more, accepted, -, -⟩ := v.writeAll_accepted (bytes.drop front.length)
      rw [same, write_ok_accepted outcome, List.append_assoc, List.self_eq_append_right] at accepted
      exact taken (List.append_eq_nil_iff.1 accepted).1
    cases call with
    | accepted open' refuses =>
      constructor
      · intro same
        exact absurd same grown
      · intro refused
        exact absurd ((accept_eq_nil_iff some open').2 (refuses.1 refused)) taken
  | case4 w bytes ne v outcome ih =>
    have accepted := write_error_accepted outcome
    have call := w.call_write bytes
    rw [outcome] at call
    cases call with
    | @failed planned _ later here retryable due =>
      have same : Sink.RefusesFrom { w with calls := w.calls + 1, failures := later } later
          (w.calls + 1) ↔ w.RefusesFrom later (w.calls + 1) := by
        apply refusesFrom_congr
        · rfl
        · rfl
        · rfl
      rw [← accepted, ih some]
      unfold Refuses
      rw [here, RefusesFrom, if_pos due]
      exact ⟨fun refused _ => same.1 refused, fun refused => same.2 (refused retryable)⟩
  | case5 w bytes ne text v outcome =>
    have accepted := write_error_accepted outcome
    have call := w.call_write bytes
    rw [outcome] at call
    cases call with
    | failed here final due =>
      refine ⟨fun _ => ?_, fun _ => accepted⟩
      unfold Refuses
      rw [here, RefusesFrom, if_pos due, final]
      intro interrupted
      cases interrupted

/-! ## Transports that never fail -/

/-- The transport takes all bytes: it never fails for good, and accepts something in every call. -/
structure TakesAll (w : Sink) : Prop where
  unbounded : w.stall = none
  unstalled : ∀ call, w.limit call ≠ some 0
  retryable : ∀ planned ∈ w.failures, planned.failure = .interrupted
  flushes : ∀ call, w.flushFailure call = none

theorem takesAll_scripted {chunk : Option Nat} {failures : List (Nat × Failure)}
    (unstalled : chunk ≠ some 0) (retryable : ∀ planned ∈ failures, planned.2 = .interrupted) :
    (scripted chunk none failures none).TakesAll := by
  refine ⟨rfl, fun _ => unstalled, ?_, fun call => ?_⟩
  · intro planned mem
    obtain ⟨source, here, rfl⟩ := List.mem_map.1 mem
    exact retryable source (Failure.mem_inOrder_iff.1 here)
  · exact ite_self none

theorem takesAll_unlimited : unlimited.TakesAll := takesAll_scripted nofun nofun

theorem TakesAll.not_stalled (takes : w.TakesAll) (calls : Nat) : ¬ w.Stalled calls := by
  unfold Stalled
  rw [takes.unbounded]
  rintro (full | full)
  · cases full
  · exact takes.unstalled calls full

theorem TakesAll.writeAll (takes : w.TakesAll) (bytes : Bytes) :
    (w.writeAll bytes).1 = .complete ∧ (w.writeAll bytes).2.TakesAll := by
  fun_induction Sink.writeAll w bytes with
  | case1 w bytes empty => exact ⟨rfl, takes⟩
  | case2 w bytes ne front v outcome empty =>
    have call := w.call_write bytes
    rw [outcome] at call
    have none : front = [] := List.isEmpty_iff.1 empty
    have some : bytes ≠ [] := fun none => ne (List.isEmpty_iff.2 none)
    cases call with
    | accepted open' refuses =>
      exact absurd ((accept_eq_nil_iff some open').1 none) (takes.not_stalled w.calls)
  | case3 w bytes ne front v outcome nonempty ih =>
    have call := w.call_write bytes
    rw [outcome] at call
    cases call with
    | accepted open' refuses =>
      exact ih ⟨takes.unbounded, takes.unstalled, takes.retryable, takes.flushes⟩
  | case4 w bytes ne v outcome ih =>
    have call := w.call_write bytes
    rw [outcome] at call
    cases call with
    | failed here _ due =>
      refine ih ⟨takes.unbounded, takes.unstalled, fun planned mem => ?_, takes.flushes⟩
      exact takes.retryable planned (here ▸ List.mem_cons_of_mem _ mem)
  | case5 w bytes ne text v outcome =>
    have call := w.call_write bytes
    rw [outcome] at call
    cases call with
    | failed here final _ =>
      have retryable := takes.retryable _ (here ▸ List.mem_cons_self)
      cases final.symm.trans retryable

/-- Neither short calls nor interruptions can be seen. -/
theorem TakesAll.send (takes : w.TakesAll) (bytes : Bytes) :
    ∃ v, Frame.send w bytes = (.ok (), v) ∧ v.TakesAll ∧
      v.accepted.toList = w.accepted.toList ++ bytes := by
  obtain ⟨complete, after⟩ := takes.writeAll bytes
  obtain ⟨front, accepted, -, all⟩ := w.writeAll_accepted bytes
  rw [all.1 complete] at accepted
  refine ⟨{ (w.writeAll bytes).2 with flushes := (w.writeAll bytes).2.flushes + 1 }, ?_, ?_,
    accepted⟩
  · unfold Frame.send
    cases outcome : w.writeAll bytes with
    | mk stop v =>
      rw [outcome] at complete after
      obtain rfl : stop = .complete := complete
      dsimp only
      rw [Sink.flush, after.flushes]
  · exact ⟨after.unbounded, after.unstalled, after.retryable, after.flushes⟩

end Sink

end CallTrace
