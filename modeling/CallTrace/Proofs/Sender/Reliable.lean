import CallTrace.Proofs.Bytes.Checksum
import CallTrace.Proofs.Message.Transit
import CallTrace.Proofs.Sender.Description
import CallTrace.Proofs.Stream.Intake

/-!
A sender on a transport that never fails. An attempt then fails only for want of a frame, and what
is accepted is the frames of all attempts that have one (`accepted_of_takesAll`).

The only limit on these frames is that of their length in four octets. Dumps have a limit of their
own, and it is below what a reader takes (`Message.readable_of_buffer`).
-/

namespace CallTrace

/-! ## One attempt -/

/-- The body of the frame of a message, if it has one whose length can be written. -/
def Message.body? (message : Message) : Option Bytes := (Attempt.mk message .unlimited).body?

namespace Attempt

variable {a : Attempt}

/-- On a transport that never fails, an attempt leaves all of its frame if there is one. -/
theorem of_takesAll (reliable : a.sink.TakesAll) :
    a.after.TakesAll ∧ (a.Succeeded ↔ a.body?.isSome = true) ∧
      a.front = (a.body?.map Frame.encode).getD [] := by
  cases here : a.body? with
  | none =>
    rcases outcome_of_no_body here with ⟨e, outcome⟩
    rcases front_of_no_body here with ⟨empty, failed⟩
    refine ⟨by rwa [after, outcome], ⟨fun ok => absurd ok failed, nofun⟩, empty⟩
  | some body =>
    rcases reliable.send (Frame.encode body) with ⟨v, sent, takes, -⟩
    have outcome := outcome_of_body here
    rw [sent] at outcome
    have succeeded : a.Succeeded := by
      rw [Succeeded, outcome]
      rfl
    exact ⟨by rwa [after, outcome], ⟨fun _ => rfl, fun _ => succeeded⟩,
      (front_of_body here).2 succeeded⟩

end Attempt

/-- A transport that never fails stays one. -/
theorem Attempts.of_takesAll {v w : Sink} {log : List Attempt} (made : Attempts v log w)
    (reliable : v.TakesAll) : (∀ a ∈ log, a.sink.TakesAll) ∧ w.TakesAll := by
  induction made with
  | none => exact ⟨nofun, reliable⟩
  | next _ ih =>
    rcases ih (Attempt.of_takesAll reliable).1 with ⟨later, last⟩
    exact ⟨List.forall_mem_cons.2 ⟨reliable, later⟩, last⟩

/-! ## One operation -/

/-- Whether a message describes an index. -/
def Message.IsDescription (message : Message) : Prop := message.described?.isSome = true

instance (message : Message) : Decidable message.IsDescription :=
  inferInstanceAs (Decidable (_ = true))

/-- If no description lacks a frame, all messages of an operation are attempted. -/
theorem attempts_of_takesAll {w : Sink} (reliable : w.TakesAll) {front : List Message}
    {last : Message} (descriptions : ∀ message ∈ front, message.IsDescription)
    (framed : ∀ a ∈ attempts w (front ++ [last]), a.message.IsDescription → a.body?.isSome = true) :
    (∀ message ∈ front, message.body?.isSome = true) ∧
      (attempts w (front ++ [last])).map Attempt.message = front ++ [last] ∧
      ((sendAll w (front ++ [last])).1 = .ok () ↔ last.body?.isSome = true) := by
  induction front generalizing w with
  | nil =>
    rw [List.nil_append, attempts_singleton]
    refine ⟨nofun, rfl, ?_⟩
    have body : last.body?.isSome = true ↔ (Attempt.mk last w).Succeeded :=
      (Attempt.of_takesAll (a := ⟨last, w⟩) reliable).2.1.symm
    rw [body, Attempt.Succeeded, sendAll]
    cases (Attempt.mk last w).outcome with
    | mk result v => cases result <;> rfl
  | cons message later ih =>
    rw [List.cons_append, attempts] at framed ⊢
    rcases List.forall_mem_cons.1 framed with ⟨first, rest⟩
    rcases List.forall_mem_cons.1 descriptions with ⟨describes, others⟩
    have body := first describes
    rcases Attempt.of_takesAll (a := ⟨message, w⟩) reliable with ⟨after, succeeds, -⟩
    have succeeded := succeeds.2 body
    rw [sendAll]
    cases outcome : (Attempt.mk message w).outcome with
    | mk result v =>
      rw [Attempt.Succeeded, outcome] at succeeded
      obtain rfl : result = .ok () := succeeded
      rw [Attempt.after, outcome] at after
      rw [outcome] at rest
      rcases ih after others rest with ⟨bodies, all, ok⟩
      exact ⟨List.forall_mem_cons.2 ⟨body, bodies⟩, by rw [List.map_cons, all], ok⟩

/-- On a transport that never fails, the messages of an operation are sent up to the first that has
no frame. -/
theorem sent_of_takesAll {w : Sink} (reliable : w.TakesAll) (messages : List Message) :
    ∃ sent unsent, messages = sent ++ unsent ∧
      sent.map Message.body? = ((attempts w messages).filterMap Attempt.body?).map some ∧
      ((sendAll w messages).1 = .ok () ↔ unsent = []) ∧
      ∀ message later, unsent = message :: later → message.body? = none := by
  induction messages generalizing w with
  | nil => exact ⟨[], [], rfl, rfl, iff_of_true rfl rfl, fun _ _ empty => by cases empty⟩
  | cons message later ih =>
    rcases Attempt.of_takesAll (a := ⟨message, w⟩) reliable with ⟨after, succeeds, -⟩
    have same : Attempt.body? ⟨message, w⟩ = message.body? := rfl
    rw [Attempt.Succeeded, same] at succeeds
    rw [attempts, sendAll]
    rw [Attempt.after] at after
    cases outcome : (Attempt.mk message w).outcome with
    | mk result v =>
      rw [outcome] at succeeds after
      cases body : message.body? with
      | none =>
        rw [body] at succeeds
        cases result with
        | ok done => cases succeeds.1 rfl
        | error e =>
          refine ⟨[], message :: later, rfl, ?_, by simp, ?_⟩
          · rw [List.filterMap_cons_none (same.trans body)]
            rfl
          · rintro _ _ ⟨⟩
            exact body
      | some bytes =>
        rw [body] at succeeds
        obtain rfl : result = .ok () := succeeds.2 rfl
        rcases ih after with ⟨sent, unsent, split, bodies, ok, stopped⟩
        refine ⟨message :: sent, unsent, by rw [split, List.cons_append], ?_, ok, stopped⟩
        rw [List.filterMap_cons_some (same.trans body), List.map_cons, List.map_cons, bodies, body]

theorem message_mem_of_mem_attempts {w : Sink} {messages : List Message} {a : Attempt}
    (mem : a ∈ attempts w messages) : a.message ∈ messages := by
  have among : a.message ∈ (attempts w messages).map Attempt.message := List.mem_map_of_mem mem
  rcases attempts_outcome w messages with ⟨-, all, -⟩ | ⟨-, -, -, -, -, -, isPrefix⟩
  · rwa [all] at among
  · exact isPrefix.subset among

/-! ## Runs -/

namespace Sender

/-- The bodies of the frames that a run writes on a transport that never fails. -/
def sentBodies (s : Sender) (requests : List Request) : List Bytes :=
  (s.log requests).filterMap Attempt.body?

theorem length_run (s : Sender) (requests : List Request) :
    (s.run requests).1.length = requests.length := by
  induction requests generalizing s with
  | nil => rfl
  | cons request later ih => exact congrArg Nat.succ (ih (s.perform request).2)

theorem log_append (s : Sender) (front back : List Request) :
    s.log (front ++ back) = s.log front ++ (s.run front).2.log back := by
  induction front generalizing s with
  | nil => rfl
  | cons request later ih =>
    rw [List.cons_append, log, ih, log, List.append_assoc]
    rfl

theorem sentBodies_append (s : Sender) (front back : List Request) :
    s.sentBodies (front ++ back)
      = s.sentBodies front ++ (s.run front).2.sentBodies back := by
  rw [sentBodies, log_append, List.filterMap_append, sentBodies, sentBodies]

/-- What is attempted is what some request comes to. -/
theorem mem_log {s : Sender} {requests : List Request} {a : Attempt} (mem : a ∈ s.log requests) :
    ∃ (t : Sender) (request : Request), request ∈ requests ∧ a.message ∈ (t.prepare request).1 := by
  induction requests generalizing s with
  | nil => cases mem
  | cons request later ih =>
    rcases List.mem_append.1 mem with here | rest
    · exact ⟨s, request, List.mem_cons_self, message_mem_of_mem_attempts here⟩
    · rcases ih rest with ⟨t, other, among, prepared⟩
      exact ⟨t, other, List.mem_cons_of_mem request among, prepared⟩

theorem accepted_of_takesAll {s : Sender} (reliable : s.sink.TakesAll) (requests : List Request) :
    (s.run requests).2.sink.accepted.toList
      = s.sink.accepted.toList ++ (s.sentBodies requests).flatMap Frame.encode := by
  rw [accepted_run, sentBodies]
  congr 1
  have sinks := ((s.attempts_log requests).of_takesAll reliable).1
  generalize s.log requests = log at sinks
  induction log with
  | nil => rfl
  | cons a later ih =>
    rcases List.forall_mem_cons.1 sinks with ⟨here, others⟩
    rw [List.flatMap_cons, (Attempt.of_takesAll here).2.2, ih others]
    cases body : a.body? with
    | none => rw [List.filterMap_cons_none body]; rfl
    | some bytes => rw [List.filterMap_cons_some body]; rfl

/-- On a transport that never fails, what a request writes is the frames of its messages up to the
first that has none. -/
theorem sentBodies_of_takesAll {s : Sender} (reliable : s.sink.TakesAll) (request : Request) :
    ∃ sent unsent, (s.prepare request).1 = sent ++ unsent ∧
      sent.map Message.body? = (s.sentBodies [request]).map some ∧
      ((s.perform request).1 = .ok () ↔ unsent = []) ∧
      ∀ message later, unsent = message :: later → message.body? = none := by
  rcases sent_of_takesAll reliable (s.prepare request).1 with
    ⟨sent, unsent, split, bodies, ok, stopped⟩
  refine ⟨sent, unsent, split, ?_, ?_, stopped⟩
  · rw [bodies, sentBodies, log, log, List.append_nil]
  · rw [perform_eq]
    exact ok

/-- The length of every frame can be told in four octets. -/
theorem length_sentBodies_lt {s : Sender} {requests : List Request} {body : Bytes}
    (mem : body ∈ s.sentBodies requests) :
    body.length + Frame.lengthSize < LittleEndian.capacity Frame.lengthSize := by
  rcases List.mem_filterMap.1 mem with ⟨a, -, here⟩
  exact (Attempt.body?_eq_some_iff.1 here).2

end Sender

/-! ## Dumps -/

theorem Utf8.length_encode_le (s : String) : (Utf8.encode s).length ≤ 4 * s.toList.length := by
  rw [Utf8.encode_eq_flatMap]
  induction s.toList with
  | nil => exact Nat.le_refl _
  | cons c later ih =>
    rw [List.flatMap_cons, List.length_append, String.length_utf8EncodeChar, List.length_cons]
    have := c.utf8Size_le_four
    omega

theorem Message.length_print_buffer (payload : Bytes) (digest : String) :
    (Message.buffer payload digest).toDocument.print.length
      = payload.length + (Utf8.encode digest).length + 50 := by
  have keys : (Utf8.encode "type").length = 4 ∧ (Utf8.encode "buffer").length = 6 ∧
      (Utf8.encode "checksum").length = 8 := by decide
  rw [Document.print_eq, Bson.length_enclosed]
  simp [Message.toDocument, Bson.fieldsOctets, Bson.payload, Bson.zeroEnded, Bson.counted,
    Bson.oldBinary, LittleEndian.length_digits, keys]
  omega

/-- A dump that can be written is short enough for its reader. -/
theorem Message.readable_of_buffer {payload body : Bytes}
    (encoded : (Message.buffer payload (checksum payload)).encode? = some body) :
    Frame.readable body = true := by
  rcases Message.encode_of_encode? encoded with ⟨written, whole⟩
  have length := congrArg List.length whole
  rw [Frame.length_encode, Message.length_print_buffer] at length
  have digest := Utf8.length_encode_le (checksum payload)
  rw [length_checksum] at digest
  have limit : payload.length ≤ Bson.maxBinary := by
    have field : ("buffer", Bson.binary 0 payload)
        ∈ (Message.buffer payload (checksum payload)).toDocument := by
      simp [Message.toDocument]
    have here := Bson.printable_of_mem written field
    rw [Bson.printable, decide_eq_true_iff, if_neg (by decide)] at here
    exact here
  have most : Bson.maxBinary + 210 ≤ Frame.maxLength := by decide
  rw [Frame.readable, decide_eq_true_iff]
  omega

/-! ## Notes -/

theorem Message.length_print_debug (tid : Int64) (time : Binary64) (text : String) :
    (Message.debug tid time text).toDocument.print.length = (Utf8.encode text).length + 53 := by
  have keys : (Utf8.encode "type").length = 4 ∧ (Utf8.encode "debug").length = 5 ∧
      (Utf8.encode "T").length = 1 ∧ (Utf8.encode "t").length = 1 ∧
      (Utf8.encode "msg").length = 3 := by decide
  rw [Document.print_eq, Bson.length_enclosed]
  simp [Message.toDocument, Bson.fieldsOctets, Bson.payload, Bson.zeroEnded, Bson.counted,
    LittleEndian.ofWord64, LittleEndian.length_digits, keys]
  omega

/-- A note has a frame whenever the length of the frame can be written. -/
theorem Message.body?_debug {tid : Int64} {time : Binary64} {text : String}
    (small : (Utf8.encode text).length + 53 < LittleEndian.capacity Frame.lengthSize) :
    ∃ body, (Message.debug tid time text).body? = some body ∧
      body.length + Frame.lengthSize = (Utf8.encode text).length + 53 := by
  have encoded : (Message.debug tid time text).encode?
      = some ((Message.debug tid time text).toDocument.print.drop Frame.lengthSize) := rfl
  have length := congrArg List.length (Message.encode_of_encode? encoded).2
  rw [Frame.length_encode, Message.length_print_debug] at length
  exact ⟨_, Attempt.body?_eq_some_iff.2 ⟨encoded, by rwa [length]⟩, length⟩

end CallTrace
