import CallTrace.Receiver.Session

/-!
Why a message is refused, and what that leaves behind. `Session.Refused` lists the causes; a process
announcement fails by its layout or by one of its fields, and no message is refused for a reason
that belongs to the framing. `Session.acceptBody_error` says that a body that is refused leaves the
state as it was.
-/

namespace CallTrace

/-- A computation that fails only by a field of the wrong type. -/
def FailsByField {α : Type} (x : Except DecodeError α) : Prop :=
  ∀ e, x = .error e → ∃ name, e = .badField name

theorem FailsByField.ok {α : Type} (a : α) : FailsByField (.ok a) := by
  intro e failed
  cases failed

theorem FailsByField.badField {α : Type} (name : String) :
    FailsByField (.error (.badField name) : Except DecodeError α) := by
  intro e failed
  cases failed
  exact ⟨name, rfl⟩

theorem FailsByField.bind {α β : Type} {x : Except DecodeError α} {f : α → Except DecodeError β}
    (first : FailsByField x) (next : ∀ a, FailsByField (f a)) : FailsByField (x >>= f) := by
  intro e failed
  cases x with
  | error e' =>
    cases failed
    exact first e rfl
  | ok a => exact next a e failed

namespace ProcessInfo

theorem intField_failsByField (args : NamedValues) (name : String) :
    FailsByField (intField args name) := by
  unfold intField
  split
  · exact .ok _
  · exact .badField name

theorem textField_failsByField (args : NamedValues) (name : String) :
    FailsByField (textField args name) := by
  unfold textField
  split
  · exact .ok _
  · exact .ok _
  · exact .badField name

theorem momentField_failsByField (name : String) (moment? : Option Moment) :
    FailsByField (momentField name moment?) := by
  cases moment? with
  | none => exact .badField name
  | some t => exact .ok t

theorem ofLayout_failsByField (args : NamedValues) (layout : ProcessLayout) :
    FailsByField (ofLayout args layout) := by
  cases layout with
  | filetimePascal =>
    refine (intField_failsByField args _).bind fun low => ?_
    refine (intField_failsByField args _).bind fun high => ?_
    refine (momentField_failsByField "TimeLow" _).bind fun firstSeen => ?_
    refine (intField_failsByField args _).bind fun pid => ?_
    refine (intField_failsByField args _).bind fun ppid => ?_
    exact (textField_failsByField args _).bind fun path => .ok _
  | filetimeSnake =>
    refine (intField_failsByField args _).bind fun pid => ?_
    refine (intField_failsByField args _).bind fun ppid => ?_
    refine (intField_failsByField args _).bind fun low => ?_
    refine (intField_failsByField args _).bind fun high => ?_
    refine (momentField_failsByField "TimeLow" _).bind fun firstSeen => ?_
    exact (textField_failsByField args _).bind fun path => .ok _
  | epochMillis =>
    refine (intField_failsByField args _).bind fun millis => ?_
    refine (momentField_failsByField "TimeStamp" _).bind fun firstSeen => ?_
    refine (intField_failsByField args _).bind fun pid => ?_
    refine (intField_failsByField args _).bind fun ppid => ?_
    exact (textField_failsByField args _).bind fun path => .ok _

/-- An announcement is refused for its layout or for one of its fields. -/
theorem normalize_error {args : NamedValues} {e : DecodeError}
    (failed : normalize args = .error e) :
    e = .unknownLayout (args.map (·.1)) ∨ ∃ name, e = .badField name := by
  unfold normalize at failed
  split at failed
  · exact .inr (ofLayout_failsByField args _ e failed)
  · cases failed
    exact .inl rfl

end ProcessInfo

namespace Session

variable {σ : Type} {session after : Session σ} {e : DecodeError}

/-- Why a message is refused. -/
inductive Refused (session : Session σ) : Message → DecodeError → Prop
  | undescribed {data : CallData} :
    session.schema.get? data.index = none → Refused session (.data data) (.unknownIndex data.index)
  | miscounted {data : CallData} {d : CallDescriptor} :
    session.schema.get? data.index = some d → data.args.length ≠ d.args.length →
    Refused session (.data data) (.argumentCount d.name d.args.length data.args.length)
  | announcement {data : CallData} {d : CallDescriptor} {args : NamedValues} {e : DecodeError} :
    session.schema.get? data.index = some d → d.bind? data.args = some args →
    d.name = ProcessInfo.processMarker → ProcessInfo.normalize args = .error e →
    Refused session (.data data) e
  | altered {payload : Bytes} {expected : String} :
    checksum payload ≠ expected →
    Refused session (.buffer payload expected) (.checksum expected (checksum payload))

theorem length_ne_of_bind?_eq_none {d : CallDescriptor} {values : List Bson}
    (unbound : d.bind? values = none) : values.length ≠ d.args.length := by
  intro same
  rw [CallDescriptor.bind?, if_pos same] at unbound
  cases unbound

/-- Data that are refused leave the state as it was. -/
theorem acceptData_error {data : CallData} (refused : session.acceptData data = (.error e, after)) :
    Refused session (.data data) e ∧ after = session := by
  unfold acceptData at refused
  split at refused
  · next unknown =>
    cases refused
    exact ⟨.undescribed unknown, rfl⟩
  · next d known =>
    split at refused
    · next unbound =>
      cases refused
      exact ⟨.miscounted known (length_ne_of_bind?_eq_none unbound), rfl⟩
    · next args bound =>
      split at refused
      · next marker =>
        split at refused
        · next failed =>
          cases refused
          exact ⟨.announcement known bound marker failed, rfl⟩
        · cases refused
      · split at refused
        · cases refused
        · cases refused

/-- A message that is refused leaves the state as it was. -/
theorem accept_error {table : CallTable} {store : BufferStore σ} {message : Message}
    (refused : session.accept table store message = (.error e, after)) :
    Refused session message e ∧ after = session := by
  cases message with
  | info info => cases refused
  | buffer payload expected =>
    simp only [accept, verify] at refused
    by_cases same : checksum payload = expected
    · rw [if_pos same] at refused
      cases refused
    · rw [if_neg same] at refused
      cases refused
      exact ⟨.altered same, rfl⟩
  | debug tid time text => cases refused
  | data data =>
    simp only [accept] at refused
    split at refused
    · next failed =>
      cases refused
      exact acceptData_error failed
    · cases refused

/-- A body is refused because it is no document, or because of the message in it; either way the
state is as it was. -/
theorem acceptBody_error {table : CallTable} {store : BufferStore σ} {body : Bytes}
    (refused : session.acceptBody table store body = (.error e, after)) :
    (Message.decode? body = none ∧ e = .malformed ∨
      ∃ message, Message.decode? body = some message ∧ Refused session message e) ∧
    after = session := by
  unfold acceptBody at refused
  split at refused
  · next undecoded =>
    cases refused
    exact ⟨.inl ⟨undecoded, rfl⟩, rfl⟩
  · next message decoded =>
    rcases accept_error refused with ⟨cause, same⟩
    exact ⟨.inr ⟨message, decoded, cause⟩, same⟩

theorem Refused.ne_frame {message : Message} (refused : Refused session message e)
    (cause : FrameError) : e ≠ .frame cause := by
  cases refused with
  | undescribed unknown => exact nofun
  | miscounted known differ => exact nofun
  | announcement known bound marker failed =>
    rcases ProcessInfo.normalize_error failed with rfl | ⟨name, rfl⟩
    · exact nofun
    · exact nofun
  | altered differ => exact nofun

/-- No body is refused for a reason of the framing. -/
theorem acceptBody_ne_frame {table : CallTable} {store : BufferStore σ} {body : Bytes}
    (refused : session.acceptBody table store body = (.error e, after)) (cause : FrameError) :
    e ≠ .frame cause := by
  rcases (acceptBody_error refused).1 with ⟨-, rfl⟩ | ⟨message, -, refused⟩
  · exact nofun
  · exact refused.ne_frame cause

end Session

end CallTrace
