import CallTrace.Proofs.Sender.Attempt

/-!
A sender as a writer of messages. What an operation writes depends on the sender's books alone, and
never on what became of earlier writes: `prepare` gives the messages of an operation and the books
after it, and `perform_eq` says that an operation is `prepare` followed by `sendAll`.

`log` lists every attempt of a run in the order in which they are made.
-/

namespace CallTrace

/-! ## Operations -/

/-- A use of a sender. -/
inductive Operation where
  | emit (index : UInt32) (name : String) (success : Bool) (result : Value) (args : NamedValues)
  | announce (pid ppid : Int64) (path : Option String)
  | debug (text : String)
  | buffer (payload : Bytes)
  | setPid (pid : Int64)

/-- A use of a sender, and what its clocks show then. -/
structure Request where
  clock : Clock
  operation : Operation

namespace Sender

/-- Serve a request. -/
def perform (s : Sender) (request : Request) : Except SendError Unit × Sender :=
  let s := { s with clock := request.clock }
  match request.operation with
  | .emit index name success result args => s.emit index name success result args
  | .announce pid ppid path => s.announceProcess pid ppid path
  | .debug text => s.emitDebug text
  | .buffer payload => s.emitBuffer payload
  | .setPid pid => (.ok (), s.setPid pid)

/-- An index as it travels. -/
def wireIndex (index : UInt32) : Int64 := index.toUInt64.toInt64

theorem wireIndex_injective {i j : UInt32} (same : wireIndex i = wireIndex j) : i = j := by
  have := congrArg Int64.toUInt64 same
  rwa [wireIndex, wireIndex, UInt64.toUInt64_toInt64, UInt64.toUInt64_toInt64,
    UInt32.toUInt64_inj] at this

/-- Whether the next call of an index is described first. -/
def Undescribed (s : Sender) (index : UInt32) : Prop :=
  index.toNat < capacity ∧ ¬ s.described.contains index

instance (s : Sender) (index : UInt32) : Decidable (s.Undescribed index) :=
  inferInstanceAs (Decidable (_ ∧ _))

/-- The messages of a call, and the sender with its books up to date. -/
def prepareCall (s : Sender) (index : UInt32) (name : String) (success : Bool) (result : Value)
    (args : NamedValues) : List Message × Sender :=
  if s.Undescribed index then
    ([.info (s.infoOf index name args), .data (s.dataOf index success result args)],
      { s with described := index :: s.described })
  else ([.data (s.dataOf index success result args)], s)

/-- The messages of a request, and the sender with its books up to date. -/
def prepare (s : Sender) (request : Request) : List Message × Sender :=
  let s := { s with clock := request.clock }
  match request.operation with
  | .emit index name success result args => s.prepareCall index name success result args
  | .announce pid ppid path =>
    let s := s.setPid pid
    s.prepareCall processIndex ProcessInfo.processMarker true (.int 0)
      (processArgs s.clock pid ppid path)
  | .debug text => ([.debug s.pid s.clock.elapsed text], s)
  | .buffer payload => ([.buffer payload (checksum payload)], s)
  | .setPid pid => ([], s.setPid pid)

theorem write_eq (s : Sender) (message : Message) :
    s.write message = ((Attempt.mk message s.sink).outcome.1,
      { s with sink := (Attempt.mk message s.sink).outcome.2 }) := by
  unfold write Attempt.outcome
  dsimp only
  cases message.encode? with
  | none => rfl
  | some body =>
    dsimp only
    cases Frame.write s.sink body with
    | mk result sink => cases result <;> rfl

/-- Writing a message and writing a list of it alone are the same. -/
theorem write_eq_sendAll (s : Sender) (message : Message) :
    s.write message
      = ((sendAll s.sink [message]).1, { s with sink := (sendAll s.sink [message]).2 }) := by
  rw [write_eq, sendAll]
  cases (Attempt.mk message s.sink).outcome with
  | mk result sink => cases result <;> rfl

theorem emit_eq (s : Sender) (index : UInt32) (name : String) (success : Bool) (result : Value)
    (args : NamedValues) :
    s.emit index name success result args
      = ((sendAll s.sink (s.prepareCall index name success result args).1).1,
          { (s.prepareCall index name success result args).2 with
            sink := (sendAll s.sink (s.prepareCall index name success result args).1).2 }) := by
  unfold emit
  by_cases fresh : s.Undescribed index
  · have described : s.describe index name args
        = Sender.write { s with described := index :: s.described }
            (.info (s.infoOf index name args)) := if_pos fresh
    have prepared : s.prepareCall index name success result args
        = ([.info (s.infoOf index name args), .data (s.dataOf index success result args)],
            { s with described := index :: s.described }) := if_pos fresh
    rw [described, prepared, write_eq]
    dsimp only
    rw [sendAll]
    cases (Attempt.mk (.info (s.infoOf index name args)) s.sink).outcome with
    | mk sent sink =>
      cases sent with
      | error e => rfl
      | ok done => exact write_eq_sendAll _ _
  · have described : s.describe index name args = (.ok (), s) := if_neg fresh
    have prepared : s.prepareCall index name success result args
        = ([.data (s.dataOf index success result args)], s) := if_neg fresh
    rw [described, prepared]
    exact write_eq_sendAll _ _

/-- An operation is its messages, written one after another. -/
theorem perform_eq (s : Sender) (request : Request) :
    s.perform request = ((sendAll s.sink (s.prepare request).1).1,
      { (s.prepare request).2 with sink := (sendAll s.sink (s.prepare request).1).2 }) := by
  obtain ⟨clock, operation⟩ := request
  cases operation with
  | emit index name success result args => exact emit_eq { s with clock } ..
  | announce pid ppid path => exact emit_eq { s with clock, pid } ..
  | debug text => exact write_eq_sendAll { s with clock } (.debug s.pid clock.elapsed text)
  | buffer payload => exact write_eq_sendAll { s with clock } (.buffer payload (checksum payload))
  | setPid pid => rfl

/-! ## Runs -/

/-- Serve requests one after another, whatever becomes of each. -/
def run (s : Sender) : List Request → List (Except SendError Unit) × Sender
  | [] => ([], s)
  | request :: later =>
    let (result, t) := s.perform request
    (result :: (t.run later).1, (t.run later).2)

/-- All attempts of a run. -/
def log (s : Sender) : List Request → List Attempt
  | [] => []
  | request :: later => attempts s.sink (s.prepare request).1 ++ (s.perform request).2.log later

theorem attempts_log (s : Sender) (requests : List Request) :
    Attempts s.sink (s.log requests) (s.run requests).2.sink := by
  induction requests generalizing s with
  | nil => exact .none
  | cons request later ih =>
    have here := attempts_sendAll s.sink (s.prepare request).1
    have after : (sendAll s.sink (s.prepare request).1).2 = (s.perform request).2.sink := by
      rw [perform_eq]
    rw [after] at here
    exact here.append (ih (s.perform request).2)

/-- The accepted bytes of a run, attempt by attempt. -/
theorem accepted_run (s : Sender) (requests : List Request) :
    (s.run requests).2.sink.accepted.toList
      = s.sink.accepted.toList ++ (s.log requests).flatMap Attempt.front :=
  (s.attempts_log requests).accepted

end Sender

end CallTrace
