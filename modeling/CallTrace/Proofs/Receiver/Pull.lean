import CallTrace.Proofs.Receiver.Dropping

/-!
A receiver pull by pull. `pull` is what a caller sees: the records of some pulls, and the receiver
behind them. `Reaches` has all points of a run, also those between two records, where a frame has
been skipped or dropped.

What one step keeps holds at all points, by induction on `Reaches`; `Reaches.pull` and
`reaches_records` say that a caller sees no others.
-/

namespace CallTrace.Receiver

variable {σ : Type} {r t u : Receiver σ} {records : List Record}

/-! ## Pulls -/

/-- The records of the first `n` pulls, and the receiver behind them. -/
def pull (r : Receiver σ) : Nat → List Record × Receiver σ
  | 0 => ([], r)
  | n + 1 => ((r.pull n).1 ++ (r.pull n).2.next.1.toList, (r.pull n).2.next.2)

theorem pull_succ (r : Receiver σ) (n : Nat) :
    r.pull (n + 1) = (r.next.1.toList ++ (r.next.2.pull n).1, (r.next.2.pull n).2) := by
  induction n with
  | zero => rw [pull, pull, pull, List.append_nil, List.nil_append]
  | succ n ih => rw [pull, ih, pull, List.append_assoc]

theorem next_of_done (done : r.done = true) : r.next = (none, r) := by
  rw [next, if_pos done]

theorem pull_of_done (done : r.done = true) (n : Nat) : r.pull n = ([], r) := by
  induction n with
  | zero => rfl
  | succ n ih => rw [pull, ih, next_of_done done, Option.toList_none, List.append_nil]

/-- What ends a stream ends it for good. -/
theorem done_of_step (stepped : r.step = (.ended, t)) : t.done = true := by
  have outcome := r.stepped_step
  rw [stepped] at outcome
  cases outcome with
  | unread read => rfl
  | finished read => rfl
  | framed read taken =>
    cases taken
    rfl

/-- A pull without a record is the last one. -/
theorem done_of_next (last : r.next = (none, t)) : t.done = true := by
  fun_induction next r with
  | case1 r done =>
    cases last
    exact done
  | case2 r running record u stepped => cases last
  | case3 r running u stepped ih => exact ih last
  | case4 r running u stepped ih => exact ih last
  | case5 r running u stepped =>
    cases last
    exact done_of_step stepped

/-- Enough pulls come to the end. -/
theorem exists_pull_done (r : Receiver σ) : ∃ n, (r.pull n).2.done = true := by
  cases pulled : r.next with
  | mk record t =>
    cases record with
    | none =>
      refine ⟨1, ?_⟩
      rw [pull_succ, pulled]
      exact done_of_next pulled
    | some record =>
      have : t.source.pending.length < r.source.pending.length := length_pending_next_lt pulled
      rcases t.exists_pull_done with ⟨n, done⟩
      refine ⟨n + 1, ?_⟩
      rw [pull_succ, pulled]
      exact done
termination_by r.source.pending.length

theorem recordsFrom_eq_pull {n : Nat} (done : (r.pull n).2.done = true) (taken : Array Record) :
    r.recordsFrom taken = (taken.toList ++ (r.pull n).1, (r.pull n).2) := by
  induction n generalizing r taken with
  | zero =>
    have ended : r.done = true := done
    rw [recordsFrom_of_none (next_of_done ended), pull, List.append_nil]
  | succ n ih =>
    rw [pull_succ] at done ⊢
    cases pulled : r.next with
    | mk record t =>
      rw [pulled] at done
      cases record with
      | none =>
        rw [recordsFrom_of_none pulled, pull_of_done (done_of_next pulled), Option.toList_none,
          List.append_nil, List.append_nil]
      | some record =>
        rw [recordsFrom_of_some pulled, ih done, Array.toList_push, List.append_assoc,
          Option.toList_some]

/-- All records are those of enough pulls. -/
theorem records_eq_pull {n : Nat} (done : (r.pull n).2.done = true) : r.records = r.pull n :=
  recordsFrom_eq_pull done #[]

/-! ## The points of a run -/

/-- What a receiver comes to, frame by frame until it is done, with the records on the way. -/
inductive Reaches (r : Receiver σ) : List Record → Receiver σ → Prop
  | start : Reaches r [] r
  | step {records : List Record} {t u : Receiver σ} {step : Step} :
    Reaches r records t → t.done = false → t.step = (step, u) →
    Reaches r (records ++ step.records) u

theorem Reaches.becomes (reached : r.Reaches records t) : r.Becomes t := by
  induction reached with
  | start => exact .self
  | step _ running stepped ih => exact ih.next running stepped

theorem Reaches.next (reached : r.Reaches records t) :
    r.Reaches (records ++ t.next.1.toList) t.next.2 := by
  fun_induction Receiver.next t generalizing records with
  | case1 t done => rwa [Option.toList_none, List.append_nil]
  | case2 t running record u stepped => exact .step reached (Bool.eq_false_iff.2 running) stepped
  | case3 t running u stepped ih =>
    have skipped := reached.step (Bool.eq_false_iff.2 running) stepped
    rw [Step.records, List.append_nil] at skipped
    exact ih skipped
  | case4 t running u stepped ih =>
    have dropped := reached.step (Bool.eq_false_iff.2 running) stepped
    rw [Step.records, List.append_nil] at dropped
    exact ih dropped
  | case5 t running u stepped => exact .step reached (Bool.eq_false_iff.2 running) stepped

/-- Every pull ends at a point of the run. -/
theorem Reaches.pull (r : Receiver σ) (n : Nat) : r.Reaches (r.pull n).1 (r.pull n).2 := by
  induction n with
  | zero => exact .start
  | succ n ih => exact ih.next

/-- The end of a run is a point of it. -/
theorem reaches_records (r : Receiver σ) : r.Reaches r.records.1 r.records.2 := by
  rcases r.exists_pull_done with ⟨n, done⟩
  rw [records_eq_pull done]
  exact .pull r n

end CallTrace.Receiver
