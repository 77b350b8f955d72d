import CallTrace.Proofs.Frame.Grammar

/-!
Frames read one after another. `readAllFrom_of_supplies` says that frames that were written are read
as themselves, whatever follows them and whatever the schedule of the transport, and
`readAll_of_servesAll` that a clean end follows if nothing else does.
-/

namespace CallTrace.Frame

variable {s t : Source} {body rest : Bytes} {written : List Bytes} {stop : Option String}

theorem readAllFrom_of_body (outcome : read s = (.ok (some body), t)) (taken : Array Bytes) :
    readAllFrom s taken = readAllFrom t (taken.push body) := by
  rw [readAllFrom]
  split
  · next here =>
    rw [outcome] at here
    cases here
  · next here =>
    rw [outcome] at here
    cases here
  · next here =>
    rw [outcome] at here
    cases here
    rfl

theorem readAllFrom_of_end (outcome : read s = (.ok none, t)) (taken : Array Bytes) :
    readAllFrom s taken = (taken.toList, none, t) := by
  rw [readAllFrom]
  split
  · next here =>
    rw [outcome] at here
    cases here
  · next here =>
    rw [outcome] at here
    cases here
    rfl
  · next here =>
    rw [outcome] at here
    cases here

/-- Frames that were written are read as themselves, and what follows them is left. -/
theorem readAllFrom_of_supplies (fits : ∀ body ∈ written, body.length + lengthSize ≤ maxLength)
    (supply : s.Supplies (written.flatMap encode ++ rest) stop) (taken : Array Bytes) :
    ∃ t, t.Supplies rest stop ∧
      readAllFrom s taken = readAllFrom t (taken ++ written.toArray) := by
  induction written generalizing s taken with
  | nil => exact ⟨s, supply, by rw [Array.append_empty]⟩
  | cons body later ih =>
    rcases List.forall_mem_cons.1 fits with ⟨small, others⟩
    rw [List.flatMap_cons, List.append_assoc] at supply
    rcases read_of_framed supply (front_encode_append small _) with ⟨t, outcome, left⟩
    rcases ih others left (taken.push body) with ⟨u, after, same⟩
    refine ⟨u, after, ?_⟩
    rw [readAllFrom_of_body outcome, same]
    simp

/-- If nothing follows the frames that were written, they are all that is read. -/
theorem readAll_of_servesAll (fits : ∀ body ∈ written, body.length + lengthSize ≤ maxLength)
    (serves : s.ServesAll (written.flatMap encode)) :
    ∃ t, readAll s = (written, none, t) ∧ t.ServesAll [] := by
  rw [← List.append_nil (written.flatMap encode)] at serves
  rcases readAllFrom_of_supplies fits (.ending serves) #[] with ⟨t, left, same⟩
  have here : front [] = .unfinished none := rfl
  rcases read_of_ending left here with ⟨u, outcome, after⟩
  refine ⟨u, ?_, after.servesAll⟩
  rw [readAll, same, readAllFrom_of_end outcome]
  simp

end CallTrace.Frame
