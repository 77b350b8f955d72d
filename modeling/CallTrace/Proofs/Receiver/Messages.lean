import CallTrace.Proofs.Message.RoundTrip
import CallTrace.Proofs.Receiver.Feed

/-!
Messages that are taken one after another, without one that is refused. `Session.Takes` is such a
sequence with the records that it yields; `feed_of_takes` says that a receiver that is fed the
frames of the messages yields these records and ends in the same state.

`Session.Hears` also has messages that are refused without an end of the stream, and
`feed_of_hears` says of them what the receiver yields and what it remembers.
-/

namespace CallTrace

variable {σ : Type}

/-- Messages, each as it is read back, take a state to another and yield records. -/
inductive Session.Takes (table : CallTable) (store : BufferStore σ) :
    Session σ → List Message → List Record → Session σ → Prop
  | none {session : Session σ} : Takes table store session [] [] session
  | next {session mid last : Session σ} {message : Message} {later : List Message}
    {record : Option Record} {records : List Record} :
    session.accept table store message.received = (.ok record, mid) →
    Takes table store mid later records last →
    Takes table store session (message :: later) (record.toList ++ records) last

/-- Messages, each as it is read back, take a state to another and yield records. Some may be
refused, but none of them ends the stream. -/
inductive Session.Hears (table : CallTable) (store : BufferStore σ) :
    Session σ → List Message → List Record → Session σ → Prop
  | none {session : Session σ} : Hears table store session [] [] session
  | taken {session mid last : Session σ} {message : Message} {later : List Message}
    {record : Option Record} {records : List Record} :
    session.accept table store message.received = (.ok record, mid) →
    Hears table store mid later records last →
    Hears table store session (message :: later) (record.toList ++ records) last
  | refused {session last : Session σ} {message : Message} {later : List Message}
    {records : List Record} {e : DecodeError} :
    session.accept table store message.received = (.error e, session) → e.isFatal = false →
    Hears table store session later records last →
    Hears table store session (message :: later) records last

namespace Session

variable {table : CallTable} {store : BufferStore σ} {session mid last : Session σ}

theorem Takes.single {message : Message} {record : Option Record}
    (accepted : session.accept table store message.received = (.ok record, last)) :
    Takes table store session [message] record.toList last := by
  have takes := Takes.next accepted (@Takes.none _ table store last)
  rwa [List.append_nil] at takes

theorem Takes.append {front back : List Message} {records more : List Record}
    (first : Takes table store session front records mid)
    (second : Takes table store mid back more last) :
    Takes table store session (front ++ back) (records ++ more) last := by
  induction first with
  | none => exact second
  | next accepted _ ih =>
    rw [List.append_assoc]
    exact .next accepted (ih second)

theorem Hears.single {message : Message} {record : Option Record}
    (accepted : session.accept table store message.received = (.ok record, last)) :
    Hears table store session [message] record.toList last := by
  have hears := Hears.taken accepted (@Hears.none _ table store last)
  rwa [List.append_nil] at hears

theorem Hears.append {front back : List Message} {records more : List Record}
    (first : Hears table store session front records mid)
    (second : Hears table store mid back more last) :
    Hears table store session (front ++ back) (records ++ more) last := by
  induction first with
  | none => exact second
  | taken accepted _ ih =>
    rw [List.append_assoc]
    exact .taken accepted (ih second)
  | refused refused mild _ ih => exact .refused refused mild (ih second)

theorem Hears.split {front back : List Message} {records : List Record}
    (hears : Hears table store session (front ++ back) records last) :
    ∃ first rest mid, records = first ++ rest ∧ Hears table store session front first mid ∧
      Hears table store mid back rest last := by
  induction front generalizing session records with
  | nil => exact ⟨[], records, session, rfl, .none, hears⟩
  | cons message later ih =>
    cases hears with
    | @taken _ _ _ _ _ record _ accepted hears =>
      rcases ih hears with ⟨first, rest, mid, rfl, here, behind⟩
      exact ⟨record.toList ++ first, rest, mid, (List.append_assoc ..).symm, .taken accepted here,
        behind⟩
    | refused refused mild hears =>
      rcases ih hears with ⟨first, rest, mid, rfl, here, behind⟩
      exact ⟨first, rest, mid, rfl, .refused refused mild here, behind⟩

theorem Takes.hears {messages : List Message} {records : List Record}
    (takes : Takes table store session messages records last) :
    Hears table store session messages records last := by
  induction takes with
  | none => exact .none
  | next accepted _ ih => exact .taken accepted ih

end Session

namespace Receiver

theorem takeBody_of_accept {r : Receiver σ} {body : Bytes} {message : Message}
    {record : Option Record} {session : Session σ} (decoded : Message.decode? body = some message)
    (accepted : r.session.accept r.table r.store message = (.ok record, session)) :
    (r.takeBody body).1.records = record.toList ∧
      (r.takeBody body).2 = { r.counting body with session } := by
  have here : r.session.acceptBody r.table r.store body = (.ok record, session) := by
    rw [Session.acceptBody, decoded]
    exact accepted
  rw [takeBody]
  dsimp only
  rw [here]
  cases record with
  | none => exact ⟨rfl, rfl⟩
  | some record => exact ⟨rfl, rfl⟩

/-- A receiver that is fed the frames of messages that are taken. -/
theorem feed_of_takes {r : Receiver σ} (running : r.done = false) {bodies : List Bytes}
    {messages : List Message} {records : List Record} {last : Session σ}
    (takes : r.session.Takes r.table r.store messages records last)
    (read : bodies.map Message.decode? = messages.map fun message => some message.received) :
    r.feed bodies
      = (records, { r with session := last, consumed := r.consumed + Frame.extent bodies }) := by
  induction bodies generalizing r messages records with
  | nil =>
    have none : messages = [] := List.map_eq_nil_iff.1 read.symm
    subst none
    cases takes
    rfl
  | cons body bodies ih =>
    rcases List.map_eq_cons_iff.1 read.symm with ⟨message, later, rfl, decoded, rest⟩
    cases takes with
    | @next _ mid _ _ _ record records accepted takes =>
      rcases takeBody_of_accept decoded.symm accepted with ⟨yielded, after⟩
      have fed := ih (r := { r.counting body with session := mid }) running takes rest.symm
      have count : (r.counting body).consumed + Frame.extent bodies
          = r.consumed + (body.length + Frame.lengthSize + Frame.extent bodies) := by
        change r.consumed + body.length + Frame.lengthSize + Frame.extent bodies = _
        omega
      rw [feed_cons running, yielded, after, fed, Frame.extent_cons]
      dsimp only
      rw [count]
      rfl

/-- A message that is refused without an end of the stream yields nothing and changes nothing. -/
theorem takeBody_of_mild {r : Receiver σ} {body : Bytes} {message : Message} {e : DecodeError}
    (decoded : Message.decode? body = some message)
    (refused : r.session.accept r.table r.store message = (.error e, r.session))
    (mild : e.isFatal = false) :
    r.takeBody body = (.dropped, { r.counting body with dropped := r.dropped.push e }) := by
  have here : r.session.acceptBody r.table r.store body = (.error e, r.session) := by
    rw [Session.acceptBody, decoded]
    exact refused
  rw [takeBody]
  dsimp only
  rw [here]
  exact if_neg (by rw [mild]; exact Bool.false_ne_true)

/-- A message that ends the stream yields nothing, and changes nothing else. -/
theorem takeBody_of_fatal {r : Receiver σ} {body : Bytes} {message : Message} {e : DecodeError}
    (decoded : Message.decode? body = some message)
    (refused : r.session.accept r.table r.store message = (.error e, r.session))
    (fatal : e.isFatal = true) :
    (r.takeBody body).1.records = [] ∧ (r.takeBody body).2.done = true ∧
      (r.takeBody body).2.session = r.session := by
  have here : r.session.acceptBody r.table r.store body = (.error e, r.session) := by
    rw [Session.acceptBody, decoded]
    exact refused
  rw [takeBody]
  dsimp only
  rw [here]
  dsimp only
  rw [if_pos fatal]
  exact ⟨rfl, rfl, rfl⟩

/-- A receiver that is fed the frames of messages that do not end its stream. -/
theorem feed_of_hears {r : Receiver σ} (running : r.done = false) {bodies : List Bytes}
    {messages : List Message} {records : List Record} {last : Session σ}
    (hears : r.session.Hears r.table r.store messages records last)
    (read : bodies.map Message.decode? = messages.map fun message => some message.received) :
    ∃ consumed dropped,
      r.feed bodies = (records, { r with session := last, consumed, dropped }) := by
  induction bodies generalizing r messages records with
  | nil =>
    have none : messages = [] := List.map_eq_nil_iff.1 read.symm
    subst none
    cases hears
    exact ⟨_, _, rfl⟩
  | cons body bodies ih =>
    rcases List.map_eq_cons_iff.1 read.symm with ⟨message, later, rfl, decoded, rest⟩
    rw [feed_cons running]
    cases hears with
    | @taken _ mid _ _ _ record records accepted hears =>
      rcases takeBody_of_accept decoded.symm accepted with ⟨yielded, after⟩
      rcases ih (r := { r.counting body with session := mid }) running hears rest.symm with
        ⟨consumed, dropped, fed⟩
      rw [yielded, after, fed]
      exact ⟨consumed, dropped, rfl⟩
    | @refused _ _ _ _ _ e refused mild hears =>
      rw [takeBody_of_mild decoded.symm refused mild]
      rcases ih (r := { r.counting body with dropped := r.dropped.push e }) running hears
        rest.symm with ⟨consumed, dropped, fed⟩
      rw [fed]
      exact ⟨consumed, dropped, rfl⟩

theorem records_feed_of_hears {r : Receiver σ} (running : r.done = false) {bodies : List Bytes}
    {messages : List Message} {records : List Record} {last : Session σ}
    (hears : r.session.Hears r.table r.store messages records last)
    (read : bodies.map Message.decode? = messages.map fun message => some message.received) :
    (r.feed bodies).1 = records := by
  rcases feed_of_hears running hears read with ⟨consumed, dropped, fed⟩
  rw [fed]

end Receiver

end CallTrace
