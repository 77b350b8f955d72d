import CallTrace.Proofs.Sender.Log
import CallTrace.Record.Basic

/-!
What a sender's user may expect of a receiver. Each request comes to one record at most, which its
own values and the requests before it decide (`expected?`), and each dump is kept once
(`keptBehind`). No encoding and no state of either side has a part in this.

The expectation holds of users who keep to the rules (`Regular`): calls have an index and a name of
their own, and one index always stands for one name and one list of argument names.
-/

namespace CallTrace

/-! ## Calls and processes -/

/-- A call that a request sends. -/
structure SentCall where
  index : UInt32
  name : String
  args : NamedValues

/-- The names of a call's arguments. -/
def SentCall.argNames (call : SentCall) : List String := call.args.map Prod.fst

namespace Request

/-- The call that a request sends; an announcement is a call, too. -/
def call? (request : Request) : Option SentCall :=
  match request.operation with
  | .emit index name _ _ args => some ⟨index, name, args⟩
  | .announce pid ppid path =>
    some ⟨Sender.processIndex, ProcessInfo.processMarker,
      Sender.processArgs request.clock pid ppid path⟩
  | _ => none

/-- The process that a request announces. -/
def announced? (request : Request) : Option Int64 :=
  match request.operation with
  | .announce pid _ _ => some pid
  | _ => none

/-- The process that a request makes the sender's own. -/
def pid? (request : Request) : Option Int64 :=
  match request.operation with
  | .announce pid _ _ => some pid
  | .setPid pid => some pid
  | _ => none

/-- Whether a call has an index and a name of its own, and not one of an announcement. -/
def Unreserved (request : Request) : Prop :=
  match request.operation with
  | .emit index name _ _ _ =>
    index.toNat < Sender.processIndex.toNat ∧ name ≠ ProcessInfo.processMarker ∧
      name ≠ ProcessInfo.threadMarker
  | _ => True

instance (request : Request) : Decidable request.Unreserved :=
  match request with
  | ⟨_, .emit ..⟩ => inferInstanceAs (Decidable (_ ∧ _))
  | ⟨_, .announce ..⟩ => .isTrue trivial
  | ⟨_, .debug _⟩ => .isTrue trivial
  | ⟨_, .buffer _⟩ => .isTrue trivial
  | ⟨_, .setPid _⟩ => .isTrue trivial

end Request

/-- All calls of some requests. -/
def calls (requests : List Request) : List SentCall := requests.filterMap Request.call?

/-- The first call of an index. -/
def firstCall? (requests : List Request) (index : UInt32) : Option SentCall :=
  (calls requests).find? fun call => call.index = index

/-- The process announced last. -/
def announcedPid? (requests : List Request) : Option Int64 :=
  (requests.filterMap Request.announced?).getLast?

/-- The sender's own process. -/
def senderPid (requests : List Request) : Int64 :=
  (requests.filterMap Request.pid?).getLast?.getD (-1)

/-- Whether the user keeps to the rules. -/
structure Regular (requests : List Request) : Prop where
  unreserved : ∀ request ∈ requests, request.Unreserved
  /-- Announcements agree in any case. -/
  consistent : ∀ call ∈ calls requests, ∀ other ∈ calls requests, call.index = other.index →
    call.name = other.name ∧ call.argNames = other.argNames

/-! ## Records -/

/-- An argument as it arrives: integers as they are, truth values as 0 and 1, anything else as its
text. -/
def Value.delivered : Value → Value
  | .int n => .int n
  | .bool b => .int (if b then 1 else 0)
  | other => .text other.display

/-- The record of a call behind other requests. Its category is that of the first call of its
index. -/
def callRecord (table : CallTable) (before : List Request) (clock : Clock) (call : SentCall)
    (success : Bool) (result : Value) : Record :=
  .call {
    pid := announcedPid? before
    tid := senderPid before
    time := clock.elapsed
    api := call.name
    category :=
      (Category.resolve table call.name ((firstCall? before call.index).getD call).args).name
    status := if success then 1 else 0
    returnValue := result
    arguments := call.args.map fun arg => (arg.1, arg.2.delivered)
    flags := .empty
    stacktrace := []
    uniqhash := .int 0
    lastError := none
    ntStatus := none }

/-- The record of a request behind other requests. -/
def expected? (table : CallTable) (before : List Request) (request : Request) : Option Record :=
  match request.operation with
  | .emit index name success result args =>
    some (callRecord table before request.clock ⟨index, name, args⟩ success result)
  | .announce pid ppid path =>
    some (.process
      ⟨pid, ppid, request.clock.epochMillis.moment, ProcessInfo.fileName (path.getD "")⟩)
  | .debug text => some (.debug (senderPid before) request.clock.elapsed text)
  | .buffer _ => none
  | .setPid _ => none

/-- The records of requests behind other requests, in order. -/
def expectedFrom (table : CallTable) (before : List Request) : List Request → List Record
  | [] => []
  | request :: later =>
    (expected? table before request).toList ++ expectedFrom table (before ++ [request]) later

/-- The records of requests, in order. -/
def expected (table : CallTable) (requests : List Request) : List Record :=
  expectedFrom table [] requests

variable {σ : Type}

/-- What is kept behind a request. -/
def keptBehind (store : BufferStore σ) (kept : σ) (request : Request) : σ :=
  match request.operation with
  | .buffer payload => (store.keep kept (checksum payload) payload).2
  | _ => kept

/-- What is kept behind requests: every dump under its digest, in order. -/
def expectedKept (store : BufferStore σ) (kept : σ) (requests : List Request) : σ :=
  requests.foldl (keptBehind store) kept

/-! ## One more request -/

section

variable {before : List Request} {request : Request}

theorem calls_concat (before : List Request) (request : Request) :
    calls (before ++ [request]) = calls before ++ request.call?.toList := by
  rw [calls, List.filterMap_append, calls]
  cases here : request.call? <;> simp [here]

theorem firstCall?_concat_of_call {call : SentCall} (sent : request.call? = some call)
    (before : List Request) (index : UInt32) :
    firstCall? (before ++ [request]) index
      = (firstCall? before index).or (if call.index = index then some call else none) := by
  rw [firstCall?, calls_concat, sent, List.find?_append, firstCall?, Option.toList_some]
  congr 1
  by_cases same : call.index = index
  · simp [same]
  · simp [same]

theorem firstCall?_concat_self {call : SentCall} (sent : request.call? = some call)
    (before : List Request) :
    firstCall? (before ++ [request]) call.index
      = some ((firstCall? before call.index).getD call) := by
  rw [firstCall?_concat_of_call sent, if_pos rfl]
  cases firstCall? before call.index <;> rfl

theorem firstCall?_concat_of_none (silent : request.call? = none) (before : List Request) :
    firstCall? (before ++ [request]) = firstCall? before := by
  funext index
  rw [firstCall?, calls_concat, silent, Option.toList_none, List.append_nil, firstCall?]

theorem announcedPid?_concat (before : List Request) (request : Request) :
    announcedPid? (before ++ [request]) = request.announced?.or (announcedPid? before) := by
  rw [announcedPid?, List.filterMap_append, announcedPid?]
  cases here : request.announced? <;> simp [here]

theorem senderPid_concat (before : List Request) (request : Request) :
    senderPid (before ++ [request]) = request.pid?.getD (senderPid before) := by
  rw [senderPid, List.filterMap_append, senderPid]
  cases here : request.pid? <;> simp [here]

theorem Regular.front {front back : List Request} (regular : Regular (front ++ back)) :
    Regular front where
  unreserved := fun request mem => regular.unreserved request (List.mem_append_left back mem)
  consistent := by
    have inside : ∀ call ∈ calls front, call ∈ calls (front ++ back) := by
      intro call mem
      rw [calls, List.filterMap_append]
      exact List.mem_append_left _ mem
    intro call mem other mem'
    exact regular.consistent call (inside call mem) other (inside other mem')

/-- The first call of an index agrees with every other. -/
theorem Regular.agrees {requests : List Request} (regular : Regular requests)
    {call first : SentCall} (mem : call ∈ calls requests)
    (here : firstCall? requests call.index = some first) :
    first.name = call.name ∧ first.argNames = call.argNames := by
  have index := List.find?_some here
  exact regular.consistent first (List.mem_of_find?_eq_some here) call mem (of_decide_eq_true index)

theorem mem_calls_concat {call : SentCall} (sent : request.call? = some call)
    (before : List Request) : call ∈ calls (before ++ [request]) := by
  rw [calls_concat, sent]
  exact List.mem_append_right _ List.mem_cons_self

end

end CallTrace
