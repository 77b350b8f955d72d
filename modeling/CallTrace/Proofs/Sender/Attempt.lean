import CallTrace.Sender.Basic

/-!
Attempts to write messages. An attempt is a message and the transport that it meets; how it ends
depends on nothing else. `Attempts.accepted` reads the accepted bytes off the attempts that were
made: what each of them left, which is a front of its frame.
-/

namespace CallTrace

/-- A flush accepts nothing. -/
theorem Frame.accepted_send (w : Sink) (bytes : Bytes) :
    (Frame.send w bytes).2.accepted = (w.writeAll bytes).2.accepted := by
  unfold Frame.send
  cases w.writeAll bytes with
  | mk stop v =>
    cases stop with
    | refused => rfl
    | fault text => rfl
    | complete =>
      dsimp only
      unfold Sink.flush
      cases v.flushFailure v.flushes <;> rfl

theorem Frame.complete_of_send_ok {w : Sink} {bytes : Bytes}
    (ok : (Frame.send w bytes).1 = .ok ()) : (w.writeAll bytes).1 = .complete := by
  unfold Frame.send at ok
  cases written : w.writeAll bytes with
  | mk stop v =>
    rw [written] at ok
    cases stop with
    | refused => cases ok
    | fault text => cases ok
    | complete => rfl

/-- What `send` adds to the accepted bytes is a front of its bytes, and all of them if it
succeeds. -/
theorem Frame.send_accepted (w : Sink) (bytes : Bytes) :
    ∃ front, (Frame.send w bytes).2.accepted.toList = w.accepted.toList ++ front ∧
      front <+: bytes ∧ ((Frame.send w bytes).1 = .ok () → front = bytes) := by
  obtain ⟨front, accepted, isPrefix, complete⟩ := w.writeAll_accepted bytes
  refine ⟨front, ?_, isPrefix, fun ok => complete.1 (Frame.complete_of_send_ok ok)⟩
  rw [Frame.accepted_send, accepted]

/-! ## Attempts to write one message -/

/-- An attempt to write a message, and the transport that it meets. -/
structure Attempt where
  message : Message
  sink : Sink

namespace Attempt

/-- The body of the frame to be written, if the message has one whose length can be written. -/
def body? (a : Attempt) : Option Bytes :=
  a.message.encode?.bind fun body =>
    if LittleEndian.capacity Frame.lengthSize ≤ body.length + Frame.lengthSize then none
    else some body

/-- How the attempt ends, and the transport after it. -/
def outcome (a : Attempt) : Except SendError Unit × Sink :=
  match a.message.encode? with
  | none => (.error .unprintable, a.sink)
  | some body =>
    match Frame.write a.sink body with
    | (.ok (), sink) => (.ok (), sink)
    | (.error e, sink) => (.error (.frame e), sink)

/-- The transport after the attempt. -/
def after (a : Attempt) : Sink := a.outcome.2

/-- Whether the message was written. -/
def Succeeded (a : Attempt) : Prop := a.outcome.1 = .ok ()

instance (a : Attempt) : Decidable a.Succeeded :=
  match here : a.outcome.1 with
  | .ok () => .isTrue here
  | .error _ => .isFalse fun ok => by rw [Succeeded, here] at ok; cases ok

/-- The bytes that the attempt left in the transport. -/
def front (a : Attempt) : Bytes := a.after.accepted.toList.drop a.sink.accepted.size

variable {a : Attempt} {body : Bytes}

theorem body?_eq_some_iff :
    a.body? = some body ↔ a.message.encode? = some body ∧
      body.length + Frame.lengthSize < LittleEndian.capacity Frame.lengthSize := by
  unfold body?
  cases a.message.encode? with
  | none => simp
  | some other =>
    rw [Option.bind_some]
    split
    · next large =>
      refine ⟨fun none => (by cases none), ?_⟩
      rintro ⟨same, small⟩
      cases same
      omega
    · next small =>
      refine ⟨?_, And.left⟩
      intro same
      cases same
      exact ⟨rfl, Nat.lt_of_not_le small⟩

theorem outcome_of_body (some : a.body? = some body) :
    a.outcome = (((Frame.send a.sink (Frame.encode body)).1.mapError SendError.frame),
      (Frame.send a.sink (Frame.encode body)).2) := by
  obtain ⟨encoded, small⟩ := body?_eq_some_iff.1 some
  unfold outcome
  rw [encoded]
  dsimp only
  rw [Frame.write, if_neg (by omega)]
  cases Frame.send a.sink (Frame.encode body) with
  | mk result sink => cases result <;> rfl

theorem outcome_of_no_body (none : a.body? = none) : ∃ e, a.outcome = (.error e, a.sink) := by
  unfold outcome
  cases encoded : a.message.encode? with
  | none => exact ⟨_, rfl⟩
  | some body =>
    dsimp only
    by_cases small : body.length + Frame.lengthSize < LittleEndian.capacity Frame.lengthSize
    · rw [body?_eq_some_iff.2 ⟨encoded, small⟩] at none
      cases none
    · rw [Frame.write, if_pos (Nat.le_of_not_lt small)]
      exact ⟨_, rfl⟩

/-- What an attempt leaves in the transport stands behind all that it found there. -/
theorem accepted_after (a : Attempt) :
    a.after.accepted.toList = a.sink.accepted.toList ++ a.front := by
  have front : ∀ more, a.after.accepted.toList = a.sink.accepted.toList ++ more →
      a.front = more := by
    intro more accepted
    rw [Attempt.front, accepted, ← Array.length_toList, List.drop_left]
  cases here : a.body? with
  | none =>
    obtain ⟨e, outcome⟩ := outcome_of_no_body here
    have accepted : a.after.accepted.toList = a.sink.accepted.toList ++ [] := by
      rw [after, outcome, List.append_nil]
    rw [front [] accepted]
    exact accepted
  | some body =>
    obtain ⟨more, accepted, -, -⟩ := Frame.send_accepted a.sink (Frame.encode body)
    have accepted : a.after.accepted.toList = a.sink.accepted.toList ++ more := by
      rw [after, outcome_of_body here]
      exact accepted
    rw [front more accepted]
    exact accepted

theorem front_of_no_body (none : a.body? = none) : a.front = [] ∧ ¬ a.Succeeded := by
  obtain ⟨e, outcome⟩ := outcome_of_no_body none
  refine ⟨?_, ?_⟩
  · rw [front, after, outcome, ← Array.length_toList, List.drop_length]
  · rw [Succeeded, outcome]
    intro ok
    cases ok

/-- What an attempt leaves is a front of its frame, and all of it if it succeeds. -/
theorem front_of_body (some : a.body? = some body) :
    a.front <+: Frame.encode body ∧ (a.Succeeded → a.front = Frame.encode body) := by
  obtain ⟨more, accepted, isPrefix, complete⟩ := Frame.send_accepted a.sink (Frame.encode body)
  have outcome := outcome_of_body some
  have front : a.front = more := by
    rw [Attempt.front, after, outcome, accepted, ← Array.length_toList, List.drop_left]
  rw [front]
  refine ⟨isPrefix, fun succeeded => complete ?_⟩
  rw [Succeeded, outcome] at succeeded
  cases sent : (Frame.send a.sink (Frame.encode body)).1 with
  | ok done => rfl
  | error e =>
    rw [sent] at succeeded
    cases succeeded

theorem Succeeded.written (succeeded : a.Succeeded) :
    ∃ body, a.body? = some body ∧ a.front = Frame.encode body := by
  cases here : a.body? with
  | none => exact absurd succeeded (front_of_no_body here).2
  | some body => exact ⟨body, rfl, (front_of_body here).2 succeeded⟩

end Attempt

/-- Attempts that follow one another, from one transport to another. -/
inductive Attempts : Sink → List Attempt → Sink → Prop
  | none {w : Sink} : Attempts w [] w
  | next {a : Attempt} {later : List Attempt} {v : Sink} :
    Attempts a.after later v → Attempts a.sink (a :: later) v

theorem Attempts.append {u v w : Sink} {front back : List Attempt} (first : Attempts u front v)
    (second : Attempts v back w) : Attempts u (front ++ back) w := by
  induction first with
  | none => exact second
  | next rest ih => exact .next (ih second)

theorem Attempts.accepted {u v : Sink} {log : List Attempt} (made : Attempts u log v) :
    v.accepted.toList = u.accepted.toList ++ log.flatMap Attempt.front := by
  induction made with
  | none => rw [List.flatMap_nil, List.append_nil]
  | @next a later v rest ih =>
    rw [ih, a.accepted_after, List.flatMap_cons, List.append_assoc]

/-! ## Messages of one operation -/

/-- Write messages until one fails. -/
def sendAll (w : Sink) : List Message → Except SendError Unit × Sink
  | [] => (.ok (), w)
  | message :: later =>
    match (Attempt.mk message w).outcome with
    | (.ok (), v) => sendAll v later
    | (.error e, v) => (.error e, v)

/-- The attempts of `sendAll`. -/
def attempts (w : Sink) : List Message → List Attempt
  | [] => []
  | message :: later =>
    ⟨message, w⟩ ::
      match (Attempt.mk message w).outcome with
      | (.ok (), v) => attempts v later
      | (.error _, _) => []

theorem attempts_singleton (w : Sink) (message : Message) :
    attempts w [message] = [⟨message, w⟩] := by
  rw [attempts]
  cases (Attempt.mk message w).outcome with
  | mk result v => cases result <;> rfl

theorem attempts_sendAll (w : Sink) (messages : List Message) :
    Attempts w (attempts w messages) (sendAll w messages).2 := by
  induction messages generalizing w with
  | nil => exact .none
  | cons message later ih =>
    rw [attempts, sendAll]
    have here : Attempts (Attempt.mk message w).sink _ _ := .next (ih _)
    cases outcome : (Attempt.mk message w).outcome with
    | mk result v =>
      have after : (Attempt.mk message w).after = v := by rw [Attempt.after, outcome]
      cases result with
      | ok done =>
        rw [after] at here
        exact here
      | error e =>
        have : Attempts (Attempt.mk message w).sink [⟨message, w⟩] (Attempt.mk message w).after :=
          .next .none
        rw [after] at this
        exact this

/-- All messages are written, or the last attempt fails, and none before it. -/
theorem attempts_outcome (w : Sink) (messages : List Message) :
    ((sendAll w messages).1 = .ok () ∧ (attempts w messages).map Attempt.message = messages ∧
        ∀ a ∈ attempts w messages, a.Succeeded) ∨
      (sendAll w messages).1 ≠ .ok () ∧ ∃ done failed, attempts w messages = done ++ [failed] ∧
        (∀ a ∈ done, a.Succeeded) ∧ ¬ failed.Succeeded ∧
        (attempts w messages).map Attempt.message <+: messages := by
  induction messages generalizing w with
  | nil => exact .inl ⟨rfl, rfl, fun a mem => by cases mem⟩
  | cons message later ih =>
    rw [attempts, sendAll]
    cases outcome : (Attempt.mk message w).outcome with
    | mk result v =>
      cases result with
      | ok done =>
        have succeeded : (Attempt.mk message w).Succeeded := by rw [Attempt.Succeeded, outcome]
        dsimp only
        rcases ih v with ⟨ok, all, each⟩ | ⟨failed, done, last, eq, each, unsent, isPrefix⟩
        · left
          refine ⟨ok, by rw [List.map_cons, all], ?_⟩
          intro a mem
          rcases List.mem_cons.1 mem with rfl | mem
          · exact succeeded
          · exact each a mem
        · right
          refine ⟨failed, ⟨message, w⟩ :: done, last, by rw [eq, List.cons_append], ?_, unsent, ?_⟩
          · intro a mem
            rcases List.mem_cons.1 mem with rfl | mem
            · exact succeeded
            · exact each a mem
          · rw [List.map_cons]
            exact (List.prefix_cons_inj message).2 isPrefix
      | error e =>
        right
        refine ⟨?_, [], ⟨message, w⟩, rfl, ?_, ?_, ⟨later, rfl⟩⟩
        · intro ok
          cases ok
        · intro a mem
          cases mem
        · rw [Attempt.Succeeded, outcome]
          intro ok
          cases ok

end CallTrace
