import CallTrace.Proofs.Sender.Log

/-!
Which descriptions reach the wire. An index is marked as described when its description is
attempted, so the attempts of one index are its description, once, and then data (`about_log`).
Whether data is written in front of its description is therefore decided by that one attempt.
-/

namespace CallTrace

/-- The index that a message describes. -/
def Message.described? : Message → Option Int64
  | .info call => some call.index
  | _ => none

/-- The index whose data a message carries. -/
def Message.carried? : Message → Option Int64
  | .data call => some call.index
  | _ => none

theorem Message.carried?_of_described? {message : Message} {index : Int64}
    (describes : message.described? = some index) : message.carried? = none := by
  cases message with
  | info info => rfl
  | _ => cases describes

namespace Sender

/-! ## What an operation does to the books -/

/-- The messages of a request and the books after it, as far as descriptions go. -/
inductive Prepared (s : Sender) : List Message × Sender → Prop
  | first {index : UInt32} {info : CallInfo} {data : CallData} {t : Sender} :
    s.Undescribed index → info.index = wireIndex index → data.index = wireIndex index →
    t.described = index :: s.described → Prepared s ([.info info, .data data], t)
  | again {index : UInt32} {data : CallData} {t : Sender} :
    ¬ s.Undescribed index → data.index = wireIndex index → t.described = s.described →
    Prepared s ([.data data], t)
  | other {messages : List Message} {t : Sender} :
    (∀ message ∈ messages, message.described? = none ∧ message.carried? = none) →
    t.described = s.described → Prepared s (messages, t)

theorem prepared_prepareCall {s t : Sender} (same : t.described = s.described) (index : UInt32)
    (name : String) (success : Bool) (result : Value) (args : NamedValues) :
    Prepared s (t.prepareCall index name success result args) := by
  have undescribed : t.Undescribed index ↔ s.Undescribed index := by
    unfold Undescribed
    rw [same]
  unfold prepareCall
  split
  · next fresh => exact .first (undescribed.1 fresh) rfl rfl (congrArg (index :: ·) same)
  · next known => exact .again (fun fresh => known (undescribed.2 fresh)) rfl same

theorem prepared_prepare (s : Sender) (request : Request) : Prepared s (s.prepare request) := by
  obtain ⟨clock, operation⟩ := request
  cases operation with
  | emit index name success result args =>
    have same : ({ s with clock } : Sender).described = s.described := rfl
    exact prepared_prepareCall same index name success result args
  | announce pid ppid path =>
    have same : ({ s with clock, pid } : Sender).described = s.described := rfl
    exact prepared_prepareCall same ..
  | debug text =>
    refine .other ?_ rfl
    intro message mem
    obtain rfl := List.mem_singleton.1 mem
    exact ⟨rfl, rfl⟩
  | buffer payload =>
    refine .other ?_ rfl
    intro message mem
    obtain rfl := List.mem_singleton.1 mem
    exact ⟨rfl, rfl⟩
  | setPid pid => exact .other (fun message mem => by cases mem) rfl

/-! ## The attempts of one index -/

/-- Whether a message describes an index or carries data of it. -/
def Concerns (index : UInt32) (message : Message) : Prop :=
  message.described? = some (wireIndex index) ∨ message.carried? = some (wireIndex index)

instance (index : UInt32) (message : Message) : Decidable (Concerns index message) :=
  inferInstanceAs (Decidable (_ ∨ _))

/-- The attempts that concern an index. -/
def about (index : UInt32) (log : List Attempt) : List Attempt :=
  log.filter fun a => Concerns index a.message

theorem mem_about {a : Attempt} {log : List Attempt} {index : UInt32} :
    a ∈ about index log ↔ a ∈ log ∧ Concerns index a.message := by
  rw [about, List.mem_filter, decide_eq_true_iff]

theorem about_append (index : UInt32) (front back : List Attempt) :
    about index (front ++ back) = about index front ++ about index back :=
  List.filter_append ..

theorem about_cons_of_concerns {index : UInt32} {a : Attempt} (concerns : Concerns index a.message)
    (later : List Attempt) : about index (a :: later) = a :: about index later :=
  List.filter_cons_of_pos (decide_eq_true concerns)

/-- Attempts to write data of an index. -/
def OnlyData (index : UInt32) (log : List Attempt) : Prop :=
  ∀ a ∈ log, a.message.carried? = some (wireIndex index)

/-- The attempts of an index that is not marked yet: its description, and then data. -/
def DescriptionThenData (index : UInt32) (log : List Attempt) : Prop :=
  log = [] ∨ ∃ first later, log = first :: later ∧
    first.message.described? = some (wireIndex index) ∧ OnlyData index later

theorem about_of_other {index : UInt32} {w : Sink} {messages : List Message}
    (none : ∀ message ∈ messages, ¬ Concerns index message) :
    about index (attempts w messages) = [] := by
  apply List.filter_eq_nil_iff.2
  intro a mem concerns
  have sent : a.message ∈ (attempts w messages).map Attempt.message :=
    List.mem_map_of_mem mem
  rcases attempts_outcome w messages with ⟨-, all, -⟩ | ⟨-, -, -, -, -, -, isPrefix⟩
  · rw [all] at sent
    exact none _ sent (of_decide_eq_true concerns)
  · exact none _ (isPrefix.subset sent) (of_decide_eq_true concerns)

/-- A message concerns one index at most. -/
theorem Concerns.unique {i j : UInt32} {message : Message} (left : Concerns i message)
    (right : Concerns j message) : i = j := by
  apply wireIndex_injective
  cases message with
  | info call =>
    rcases left with left | left
    · rcases right with right | right
      · exact Option.some.inj (left.symm.trans right)
      · cases right
    · cases left
  | data call =>
    rcases left with left | left
    · cases left
    · rcases right with right | right
      · cases right
      · exact Option.some.inj (left.symm.trans right)
  | buffer payload checksum =>
    rcases left with left | left
    · cases left
    · cases left
  | debug tid time text =>
    rcases left with left | left
    · cases left
    · cases left

/-- The attempts to describe an index and write its data are the first of these, and perhaps the
second. -/
theorem attempts_pair (w : Sink) (first second : Message) :
    ∃ rest, attempts w [first, second] = ⟨first, w⟩ :: rest ∧ ∀ a ∈ rest, a.message = second := by
  rw [attempts]
  cases (Attempt.mk first w).outcome with
  | mk result v =>
    cases result with
    | ok done =>
      dsimp only
      rw [attempts_singleton]
      refine ⟨_, rfl, fun a mem => ?_⟩
      rw [List.mem_singleton.1 mem]
    | error e => exact ⟨_, rfl, fun a mem => by cases mem⟩

theorem about_eq_self {index : UInt32} {log : List Attempt}
    (all : ∀ a ∈ log, Concerns index a.message) : about index log = log :=
  List.filter_eq_self.2 fun a mem => decide_eq_true (all a mem)

theorem OnlyData.append {index : UInt32} {front back : List Attempt} (first : OnlyData index front)
    (second : OnlyData index back) : OnlyData index (front ++ back) := by
  intro a mem
  rcases List.mem_append.1 mem with mem | mem
  · exact first a mem
  · exact second a mem

/-- What the messages of a request and the books after it are to one index. -/
inductive Concerning (s : Sender) (index : UInt32) : List Message × Sender → Prop
  | first {info : CallInfo} {data : CallData} {t : Sender} :
    index ∉ s.described → (Message.info info).described? = some (wireIndex index) →
    (Message.data data).carried? = some (wireIndex index) → index ∈ t.described →
    Concerning s index ([.info info, .data data], t)
  | again {data : CallData} {t : Sender} :
    index ∈ s.described → (Message.data data).carried? = some (wireIndex index) →
    index ∈ t.described → Concerning s index ([.data data], t)
  | silent {messages : List Message} {t : Sender} :
    (∀ message ∈ messages, ¬ Concerns index message) →
    (index ∈ t.described ↔ index ∈ s.described) → Concerning s index (messages, t)

theorem Prepared.concerning {s : Sender} {outcome : List Message × Sender}
    (prepared : Prepared s outcome) {index : UInt32} (small : index.toNat < capacity) :
    Concerning s index outcome := by
  cases prepared with
  | @first other info data t undescribed infoIndex dataIndex books =>
    have describes : (Message.info info).described? = some (wireIndex other) :=
      congrArg some infoIndex
    have carries : (Message.data data).carried? = some (wireIndex other) :=
      congrArg some dataIndex
    by_cases same : index = other
    · subst same
      have marked : index ∈ t.described := books ▸ List.mem_cons_self
      exact .first (mt List.contains_iff_mem.2 undescribed.2) describes carries marked
    · refine .silent ?_ ?_
      · intro message mem concerns
        rcases List.mem_cons.1 mem with rfl | mem
        · exact same (concerns.unique (.inl describes))
        · rw [List.mem_singleton.1 mem] at concerns
          exact same (concerns.unique (.inr carries))
      · rw [books, List.mem_cons, or_iff_right same]
  | @again other data t described dataIndex books =>
    have carries : (Message.data data).carried? = some (wireIndex other) :=
      congrArg some dataIndex
    by_cases same : index = other
    · subst same
      -- The capacity does not keep the index from being marked, so it is.
      have mem : index ∈ s.described := by
        by_cases mem : index ∈ s.described
        · exact mem
        · exact absurd ⟨small, mt List.contains_iff_mem.1 mem⟩ described
      exact .again mem carries (books ▸ mem)
    · refine .silent ?_ (by rw [books])
      intro message mem concerns
      rw [List.mem_singleton.1 mem] at concerns
      exact same (concerns.unique (.inr carries))
  | other none books =>
    refine .silent ?_ (by rw [books])
    intro message mem concerns
    rcases none message mem with ⟨noInfo, noData⟩
    rw [Concerns, noInfo, noData] at concerns
    rcases concerns with eq | eq
    · cases eq
    · cases eq

/-- The attempts of an index below the capacity are its description, once, and then data; if it is
marked already, only data. -/
theorem about_log (s : Sender) (requests : List Request) {index : UInt32}
    (small : index.toNat < capacity) :
    (index ∈ s.described → OnlyData index (about index (s.log requests))) ∧
      (index ∉ s.described → DescriptionThenData index (about index (s.log requests))) := by
  induction requests generalizing s with
  | nil =>
    refine ⟨fun _ a mem => ?_, fun _ => .inl rfl⟩
    cases mem
  | cons request later ih =>
    have marked : (s.perform request).2.described = (s.prepare request).2.described := by
      rw [perform_eq]
    rcases ih (s.perform request).2 with ⟨known, fresh⟩
    rw [marked] at known fresh
    rw [log, about_append]
    have concerning := (s.prepared_prepare request).concerning small
    cases outcome : s.prepare request with
    | mk messages t =>
      rw [outcome] at concerning known fresh
      dsimp only at known fresh ⊢
      cases concerning with
      | @first info data _ absent describes carries mem =>
        rcases attempts_pair s.sink (.info info) (.data data) with ⟨rest, eq, only⟩
        have onlyRest : OnlyData index rest := by
          intro a mem
          rw [only a mem]
          exact carries
        have all : about index (⟨.info info, s.sink⟩ :: rest) = ⟨.info info, s.sink⟩ :: rest := by
          apply about_eq_self
          intro a mem
          rcases List.mem_cons.1 mem with rfl | mem
          · exact .inl describes
          · exact .inr (onlyRest a mem)
        rw [eq, all]
        exact ⟨fun here => absurd here absent,
          fun _ => .inr ⟨_, _, rfl, describes, onlyRest.append (known mem)⟩⟩
      | @again data _ here carries mem =>
        have only : OnlyData index (about index (attempts s.sink [.data data])) := by
          intro a mem
          have sent : a ∈ attempts s.sink [.data data] := (mem_about.1 mem).1
          rw [attempts_singleton] at sent
          rw [List.mem_singleton.1 sent]
          exact carries
        exact ⟨fun _ => only.append (known mem), fun absent => absurd here absent⟩
      | silent none same =>
        rw [about_of_other none, List.nil_append]
        exact ⟨fun here => known (same.2 here), fun absent => fresh (mt same.1 absent)⟩

/-! ## Descriptions on the wire -/

/-- The attempts that wrote their message. -/
def written (log : List Attempt) : List Attempt := log.filter fun a => a.Succeeded

/-- Whether data of an index below the capacity never comes before a description of its index. -/
def DescribedFirst (log : List Attempt) : Prop :=
  ∀ before a after index, log = before ++ a :: after → index.toNat < capacity →
    a.message.carried? = some (wireIndex index) →
    ∃ d ∈ before, d.message.described? = some (wireIndex index)

/-- Whether the description of an index below the capacity failed, and data of the index was written
nevertheless. -/
def DataBehindFailure (log : List Attempt) : Prop :=
  ∃ index d a, index.toNat < capacity ∧ [d, a].Sublist log ∧
    d.message.described? = some (wireIndex index) ∧ ¬ d.Succeeded ∧
    a.message.carried? = some (wireIndex index) ∧ a.Succeeded

theorem written_cons_of_succeeded {a : Attempt} (succeeded : a.Succeeded) (later : List Attempt) :
    written (a :: later) = a :: written later :=
  List.filter_cons_of_pos (decide_eq_true succeeded)

theorem written_cons_of_failed {a : Attempt} (failed : ¬ a.Succeeded) (later : List Attempt) :
    written (a :: later) = written later :=
  List.filter_cons_of_neg (mt of_decide_eq_true failed)

theorem mem_written {a : Attempt} {log : List Attempt} :
    a ∈ written log ↔ a ∈ log ∧ a.Succeeded := by
  rw [written, List.mem_filter, decide_eq_true_iff]

/-- If failing attempts leave nothing behind, the accepted bytes are the frames that were
written. -/
theorem flatMap_front_of_clean {log : List Attempt}
    (clean : ∀ a ∈ log, ¬ a.Succeeded → a.front = []) :
    log.flatMap Attempt.front = ((written log).filterMap Attempt.body?).flatMap Frame.encode := by
  induction log with
  | nil => rfl
  | cons a later ih =>
    have rest := ih fun other mem => clean other (List.mem_cons_of_mem a mem)
    rw [List.flatMap_cons, rest]
    by_cases succeeded : a.Succeeded
    · obtain ⟨body, here, front⟩ := succeeded.written
      rw [written_cons_of_succeeded succeeded, List.filterMap_cons_some here, List.flatMap_cons,
        front]
    · rw [written_cons_of_failed succeeded, clean a List.mem_cons_self succeeded, List.nil_append]

/-- No index is described twice. -/
theorem eq_first_of_describes {index : UInt32} {log later : List Attempt} {first a : Attempt}
    (shape : about index log = first :: later) (only : OnlyData index later) (mem : a ∈ log)
    (describes : a.message.described? = some (wireIndex index)) : a = first := by
  have here : a ∈ about index log := mem_about.2 ⟨mem, .inl describes⟩
  rw [shape] at here
  rcases List.mem_cons.1 here with eq | behind
  · exact eq
  · have carries := only a behind
    rw [Message.carried?_of_described? describes] at carries
    cases carries

/-- The attempts to describe an index. -/
def descriptionsOf (index : UInt32) (log : List Attempt) : List Attempt :=
  log.filter fun a => a.message.described? = some (wireIndex index)

theorem descriptionsOf_about (index : UInt32) (log : List Attempt) :
    descriptionsOf index (about index log) = descriptionsOf index log := by
  rw [descriptionsOf, about, List.filter_filter, descriptionsOf]
  apply List.filter_congr
  intro a mem
  by_cases describes : a.message.described? = some (wireIndex index)
  · have concerns : Concerns index a.message := .inl describes
    rw [decide_eq_true describes, decide_eq_true concerns]
    rfl
  · rw [decide_eq_false describes]
    rfl

theorem length_descriptionsOf_le {index : UInt32} {log : List Attempt}
    (shape : DescriptionThenData index (about index log)) :
    (descriptionsOf index log).length ≤ 1 := by
  rw [← descriptionsOf_about]
  rcases shape with none | ⟨first, later, cons, describes, only⟩
  · rw [none]
    exact Nat.zero_le 1
  · have rest : descriptionsOf index later = [] := by
      apply List.filter_eq_nil_iff.2
      intro a mem describes'
      have carries := only a mem
      rw [Message.carried?_of_described? (of_decide_eq_true describes')] at carries
      cases carries
    have all : descriptionsOf index (first :: later) = first :: descriptionsOf index later :=
      List.filter_cons_of_pos (decide_eq_true describes)
    rw [cons, all, rest]
    exact Nat.le_refl 1

theorem about_written (index : UInt32) (log : List Attempt) :
    about index (written log) = written (about index log) := by
  rw [about, written, List.filter_filter, about, written, List.filter_filter]
  exact List.filter_congr fun b _ => Bool.and_comm ..

theorem not_dataBehindFailure_of_describedFirst {log : List Attempt}
    (shape : ∀ index : UInt32, index.toNat < capacity →
      DescriptionThenData index (about index log))
    (described : DescribedFirst (written log)) : ¬ DataBehindFailure log := by
  rintro ⟨index, d, a, small, order, describes, failed, carries, succeeded⟩
  have dMem : d ∈ log := order.subset List.mem_cons_self
  have aMem : a ∈ log := order.subset (List.mem_cons_of_mem d List.mem_cons_self)
  rcases List.append_of_mem (mem_written.2 ⟨aMem, succeeded⟩) with ⟨before, after, eq⟩
  rcases described before a after index eq small carries with ⟨e, eMem, describes'⟩
  have eWritten : e ∈ written log := by
    rw [eq]
    exact List.mem_append_left _ eMem
  rcases mem_written.1 eWritten with ⟨eMem, written⟩
  rcases shape index small with none | ⟨first, later, cons, -, only⟩
  · have here : d ∈ about index log := mem_about.2 ⟨dMem, .inl describes⟩
    rw [none] at here
    cases here
  · obtain rfl := eq_first_of_describes cons only dMem describes
    obtain rfl := eq_first_of_describes cons only eMem describes'
    exact failed written

theorem describedFirst_of_not_dataBehindFailure {log : List Attempt}
    (shape : ∀ index : UInt32, index.toNat < capacity →
      DescriptionThenData index (about index log))
    (sound : ¬ DataBehindFailure log) : DescribedFirst (written log) := by
  intro before a after index eq small carries
  have aMem : a ∈ written log := by
    rw [eq]
    exact List.mem_append_right before List.mem_cons_self
  rcases mem_written.1 aMem with ⟨aMem, succeeded⟩
  have here : a ∈ about index log := mem_about.2 ⟨aMem, .inr carries⟩
  rcases shape index small with none | ⟨first, later, cons, describes, only⟩
  · rw [none] at here
    cases here
  · have different : first ≠ a := by
      rintro rfl
      rw [Message.carried?_of_described? describes] at carries
      cases carries
    rw [cons] at here
    have behind : a ∈ later := (List.mem_cons.1 here).resolve_left different.symm
    have order : [first, a].Sublist log := by
      have pair : [first, a].Sublist (first :: later) :=
        (List.singleton_sublist.2 behind).cons_cons first
      rw [← cons] at pair
      exact pair.trans List.filter_sublist
    have wrote : first.Succeeded := by
      by_cases wrote : first.Succeeded
      · exact wrote
      · exact absurd ⟨index, first, a, small, order, describes, wrote, carries, succeeded⟩ sound
    -- Among the written attempts of the index, the first is the description, so it is not `a`.
    have ordered : about index before ++ a :: about index after = first :: written later := by
      have both := about_written index log
      rw [cons, written_cons_of_succeeded wrote, eq, about_append] at both
      rw [← both, about_cons_of_concerns (.inr carries)]
    cases front : about index before with
    | nil =>
      rw [front] at ordered
      exact absurd (List.cons.inj ordered).1.symm different
    | cons e rest =>
      rw [front] at ordered
      obtain rfl := (List.cons.inj ordered).1
      have eMem : e ∈ about index before := by
        rw [front]
        exact List.mem_cons_self
      exact ⟨e, (mem_about.1 eMem).1, describes⟩

/-- Data is written in front of its description exactly if the description failed. -/
theorem describedFirst_written_iff {log : List Attempt}
    (shape : ∀ index : UInt32, index.toNat < capacity →
      DescriptionThenData index (about index log)) :
    DescribedFirst (written log) ↔ ¬ DataBehindFailure log :=
  ⟨not_dataBehindFailure_of_describedFirst shape, describedFirst_of_not_dataBehindFailure shape⟩

/-- What descriptions a run leaves on the wire. -/
structure DescriptionsOnWire (s : Sender) (requests : List Request) : Prop where
  accepted : (s.run requests).2.sink.accepted.toList = s.sink.accepted.toList
    ++ ((written (s.log requests)).filterMap Attempt.body?).flatMap Frame.encode
  first : DescribedFirst (written (s.log requests)) ↔ ¬ DataBehindFailure (s.log requests)
  once : ∀ index : UInt32, index.toNat < capacity →
    (descriptionsOf index (s.log requests)).length ≤ 1

/-- On a transport that takes frames whole or not at all, data is written without a description in
front of it exactly if the description failed: it is not attempted again. -/
theorem descriptionsOnWire_of_clean (sink : Sink) (table : CallTable) (clock : Clock)
    (requests : List Request)
    (clean : ∀ a ∈ (start sink table clock).log requests, ¬ a.Succeeded → a.front = []) :
    DescriptionsOnWire (start sink table clock) requests := by
  have shape : ∀ index : UInt32, index.toNat < capacity →
      DescriptionThenData index (about index ((start sink table clock).log requests)) := by
    intro index small
    apply (about_log (start sink table clock) requests small).2
    intro mem
    cases mem
  refine ⟨?_, describedFirst_written_iff shape, fun index small => ?_⟩
  · rw [accepted_run, flatMap_front_of_clean clean]
  · exact length_descriptionsOf_le (shape index small)

/-- A sender whose first write call fails. -/
def resetOnce : Sender :=
  start (.scripted none none [(0, .fault "connection reset")] none) (.ofLists [] [] [] [])
    ⟨.zero, 0⟩

/-- Two calls of one index. -/
def twoCalls : List Request :=
  [⟨⟨.zero, 0⟩, .emit 7 "NtClose" true (.int 0) []⟩,
    ⟨⟨.zero, 0⟩, .emit 7 "NtClose" true (.int 0) []⟩]

theorem descriptionsOnWire_resetOnce :
    (∀ a ∈ resetOnce.log twoCalls, ¬ a.Succeeded → a.front = []) ∧
      DescriptionsOnWire resetOnce twoCalls :=
  ⟨by decide +kernel, descriptionsOnWire_of_clean _ _ _ _ (by decide +kernel)⟩

/-- The description of the first call fails, and the second call sends its data alone. -/
theorem not_describedFirst_of_clean :
    ¬ ∀ (sink : Sink) (table : CallTable) (clock : Clock) (requests : List Request),
      (∀ a ∈ (start sink table clock).log requests, ¬ a.Succeeded → a.front = []) →
      DescribedFirst (written ((start sink table clock).log requests)) := by
  intro claim
  have first : DescribedFirst (written (resetOnce.log twoCalls)) :=
    claim _ _ _ _ (by decide +kernel)
  have wrote : (written (resetOnce.log twoCalls)).map (fun a => a.message.carried?)
      = [some (wireIndex 7)] := by decide +kernel
  obtain ⟨a, rest, eq, carries, none⟩ := List.map_eq_cons_iff.1 wrote
  obtain ⟨d, mem, -⟩ := first [] a rest 7 eq (by decide) carries
  cases mem

end Sender

end CallTrace
