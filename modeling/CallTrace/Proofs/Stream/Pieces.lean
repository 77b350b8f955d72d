import CallTrace.Proofs.Stream.Intake

/-!
Bytes that are written in pieces. What a transport has accepted afterwards is a front of all the
pieces, and it is all of them just if every piece was accepted (`Sink.gains_writePieces`), so it
does not matter where the bytes are cut.
-/

namespace CallTrace.Sink

variable {w v u : Sink} {bytes later : Bytes} {whole more : Prop}

/-- A transport has accepted a front of some bytes since, and all of them just if they were written
as a whole. -/
def Gains (w v : Sink) (bytes : Bytes) (whole : Prop) : Prop :=
  ∃ front, v.accepted.toList = w.accepted.toList ++ front ∧ front <+: bytes ∧
    (whole ↔ front = bytes)

namespace Gains

theorem nil (w : Sink) : w.Gains w [] True :=
  ⟨[], (List.append_nil _).symm, List.prefix_refl _, by simp⟩

theorem accepted (gains : w.Gains v bytes whole) (done : whole) :
    v.accepted.toList = w.accepted.toList ++ bytes := by
  rcases gains with ⟨front, accepted, -, all⟩
  rw [accepted, all.1 done]

/-- Behind bytes that were written as a whole, others may be written. -/
theorem append (gains : w.Gains v bytes whole) (done : whole) (further : v.Gains u later more) :
    w.Gains u (bytes ++ later) more := by
  rcases further with ⟨front, accepted, isPrefix, all⟩
  refine ⟨bytes ++ front, ?_, (List.prefix_append_right_inj bytes).2 isPrefix, ?_⟩
  · rw [accepted, gains.accepted done, List.append_assoc]
  · rw [all, List.append_cancel_left_eq]

/-- Behind bytes that were not written as a whole, nothing is written. -/
theorem stop (gains : w.Gains v bytes whole) (cut : ¬ whole) (later : Bytes) :
    w.Gains v (bytes ++ later) False := by
  rcases gains with ⟨front, accepted, isPrefix, all⟩
  refine ⟨front, accepted, isPrefix.trans (List.prefix_append ..), iff_of_false id ?_⟩
  -- A front of the first bytes is all of both only if nothing stands behind them.
  rintro rfl
  have length := isPrefix.length_le
  rw [List.length_append] at length
  have none : later = [] := List.eq_nil_of_length_eq_zero (by omega)
  rw [none, List.append_nil] at all
  exact cut (all.2 rfl)

theorem iff (gains : w.Gains v bytes whole) (same : whole ↔ more) : w.Gains v bytes more := by
  rwa [← propext same]

end Gains

theorem gains_writeAll (w : Sink) (bytes : Bytes) :
    w.Gains (w.writeAll bytes).2 bytes ((w.writeAll bytes).1 = .complete) :=
  w.writeAll_accepted bytes

/-- Write pieces one after another, up to the first that is not accepted as a whole. -/
def writePieces (w : Sink) : List Bytes → WriteEnd × Sink
  | [] => (.complete, w)
  | piece :: later =>
    match w.writeAll piece with
    | (.complete, w) => w.writePieces later
    | (ending, w) => (ending, w)

theorem writePieces_singleton (w : Sink) (piece : Bytes) :
    w.writePieces [piece] = w.writeAll piece := by
  rw [writePieces]
  cases w.writeAll piece with
  | mk ending v => cases ending <;> rfl

theorem gains_writePieces (w : Sink) (pieces : List Bytes) :
    w.Gains (w.writePieces pieces).2 pieces.flatten ((w.writePieces pieces).1 = .complete) := by
  induction pieces generalizing w with
  | nil => exact (Gains.nil w).iff (by simp [writePieces])
  | cons piece later ih =>
    have first := w.gains_writeAll piece
    rw [List.flatten_cons, writePieces]
    cases outcome : w.writeAll piece with
    | mk ending v =>
      rw [outcome] at first
      cases ending with
      | complete => exact first.append rfl (ih v)
      | refused => exact (first.stop (by simp) _).iff (by simp)
      | fault text => exact (first.stop (by simp) _).iff (by simp)

theorem TakesAll.writePieces (takes : w.TakesAll) (pieces : List Bytes) :
    (w.writePieces pieces).1 = .complete ∧ (w.writePieces pieces).2.TakesAll := by
  induction pieces generalizing w with
  | nil => exact ⟨rfl, takes⟩
  | cons piece later ih =>
    rcases takes.writeAll piece with ⟨complete, after⟩
    rw [Sink.writePieces]
    cases outcome : w.writeAll piece with
    | mk ending v =>
      rw [outcome] at complete after
      obtain rfl : ending = .complete := complete
      exact ih after

end CallTrace.Sink
