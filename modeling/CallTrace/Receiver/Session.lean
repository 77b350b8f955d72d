import CallTrace.Buffer
import CallTrace.Message.Codec
import CallTrace.Process
import CallTrace.Record.Basic
import CallTrace.Schema

/-!
What a receiver knows between frames, and what one message does to it: what the message yields, or
why it is refused, and the state that it leaves behind in either case.
-/

namespace CallTrace

/-- The state of a receiver between frames. -/
structure Session (σ : Type) where
  schema : Schema
  /-- The process announced last. -/
  pid : Option Int64
  /-- The state of the place where dumps are kept. -/
  kept : σ

/-- The first value of a name, and all others in order. -/
def takeFirst (name : String) : NamedValues → Option Value × NamedValues
  | [] => (none, [])
  | (key, value) :: rest =>
    if key = name then (some value, rest)
    else
      let (found, others) := takeFirst name rest
      (found, (key, value) :: others)

namespace Session

variable {σ : Type}

/-- Nothing is known yet. -/
def initial (kept : σ) : Session σ := ⟨.empty, none, kept⟩

/-- The record of a thread: its process is named by its values, or is the one announced last. -/
def threadRecord (session : Session σ) (args : NamedValues) : Record :=
  .thread (((takeFirst "ProcessIdentifier" args).1.bind Value.asInt?).or session.pid)

/-- The record of a call. Its success and its result are taken out of its values; a success that
is absent or no integer counts as 1, and an absent result as 0. -/
def callRecord (session : Session σ) (d : CallDescriptor) (data : CallData) (args : NamedValues) :
    Record :=
  let (success, args) := takeFirst "is_success" args
  let (result, args) := takeFirst "retval" args
  .call {
    pid := session.pid
    tid := data.tid
    time := data.time
    api := d.name
    category := d.category
    status := (success.bind Value.asInt?).getD 1
    returnValue := result.getD (.int 0)
    arguments := args
    flags :=
      if session.schema.hasFlags d.name then session.schema.resolveFlags d.name args else .empty
    stacktrace := data.stacktrace
    uniqhash := data.uniqhash
    lastError := data.lastError
    ntStatus := data.ntStatus }

/-- The record of some data, or why there is none, and the state after it. -/
def acceptData (session : Session σ) (data : CallData) : Except DecodeError Record × Session σ :=
  match session.schema.get? data.index with
  | none => (.error (.unknownIndex data.index), session)
  | some d =>
    match d.bind? data.args with
    | none => (.error (.argumentCount d.name d.args.length data.args.length), session)
    | some args =>
      if d.name = ProcessInfo.processMarker then
        match ProcessInfo.normalize args with
        | .error e => (.error e, session)
        | .ok info => (.ok (.process info), { session with pid := some info.pid })
      else if d.name = ProcessInfo.threadMarker then (.ok (session.threadRecord args), session)
      else (.ok (session.callRecord d data args), session)

/-- What a message yields, or why it is refused, and the state after it. -/
def accept (table : CallTable) (store : BufferStore σ) (session : Session σ) :
    Message → Except DecodeError (Option Record) × Session σ
  | .info info =>
    (.ok none, { session with schema := session.schema.describe table info })
  | .buffer payload expected =>
    match verify payload expected with
    | .error e => (.error e, session)
    | .ok digest =>
      (.ok none, { session with kept := (store.keep session.kept digest payload).2 })
  | .debug tid time text => (.ok (some (.debug tid time text)), session)
  | .data data =>
    match session.acceptData data with
    | (.error e, session) => (.error e, session)
    | (.ok record, session) => (.ok (some record), session)

/-- What the body of a frame yields, or why it is refused, and the state after it. -/
def acceptBody (table : CallTable) (store : BufferStore σ) (session : Session σ) (body : Bytes) :
    Except DecodeError (Option Record) × Session σ :=
  match Message.decode? body with
  | none => (.error .malformed, session)
  | some message => session.accept table store message

end Session

end CallTrace
