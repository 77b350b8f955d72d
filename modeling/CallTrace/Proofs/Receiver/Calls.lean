import CallTrace.Proofs.Receiver.Feed
import CallTrace.Proofs.Schema.Descriptions

/-!
Records of calls follow descriptions. `lastDescription?` finds the description that counts for an
index behind some frames, `Announces` says when a frame of data comes to a call, and `Follows` what
the call takes from the description and what from the data. `calls_follow_descriptions` says so of
all frames that a receiver reaches in a stream, whose records are those of its `trail`.

The invariant is `Informed`: what a receiver remembers of an index is what the last description of
it said, so every descriptor has one conversion for each name, and one name for each entry.
-/

namespace CallTrace

variable {σ : Type}

/-! ## Descriptions in a stream -/

/-- The document of a description, if the body of a frame holds one. -/
def descriptionIn? (body : Bytes) : Option Document :=
  (Document.parseBody? body).filter fun d => d.getString? "type" = some "info"

/-- The last description of an index among the bodies of frames. -/
def lastDescription? (bodies : List Bytes) (index : Int64) : Option Document :=
  ((bodies.filterMap descriptionIn?).filter fun d =>
    (CallInfo.ofDocument d).index = index).getLast?

/-- The entries of a description's arguments. -/
def argEntries (d : Document) : List Bson := (d.getArray? "args").getD []

/-- A value under the name of its entry, converted as the entry asks for. -/
def namedAs (entry raw : Bson) : String × Value :=
  let spec := ArgSpec.ofBson entry
  (spec.name, (if spec.tag = some "p" then Converter.pointer else .default).apply raw)

/-- Positional values under the names of a description. -/
def namedBy (d : Document) (values : List Bson) : NamedValues :=
  List.zipWith namedAs (argEntries d) values

theorem lastDescription?_concat (bodies : List Bytes) (body : Bytes) (index : Int64) :
    lastDescription? (bodies ++ [body]) index
      = ((descriptionIn? body).filter fun d => (CallInfo.ofDocument d).index = index).or
          (lastDescription? bodies index) := by
  rw [lastDescription?, List.filterMap_append, List.filter_append, List.getLast?_append]
  cases here : descriptionIn? body with
  | none => rw [List.filterMap_cons_none here]; rfl
  | some d =>
    rw [List.filterMap_cons_some here, List.filterMap_nil, Option.filter_some]
    by_cases same : (CallInfo.ofDocument d).index = index
    · rw [List.filter_cons_of_pos (by simpa using same), if_pos (by simpa using same)]
      rfl
    · rw [List.filter_cons_of_neg (by simpa using same), if_neg (by simpa using same)]
      rfl

/-- A message is a description exactly if its document says so. -/
theorem Message.ofDocument_eq_info_iff {d : Document} {info : CallInfo} :
    Message.ofDocument d = .info info
      ↔ d.getString? "type" = some "info" ∧ CallInfo.ofDocument d = info := by
  unfold Message.ofDocument
  constructor
  · intro isInfo
    split at isInfo
    · next named =>
      cases isInfo
      cases kind : d.getString? "type" with
      | none =>
        rw [kind] at named
        exact absurd named (by decide)
      | some name =>
        rw [kind] at named
        exact ⟨congrArg some named, rfl⟩
    · cases isInfo
    · cases isInfo
    · cases isInfo
  · rintro ⟨named, rfl⟩
    rw [named]
    rfl

/-- The last description of an index is one of the frames. -/
theorem mem_of_lastDescription? {bodies : List Bytes} {index : Int64} {d : Document}
    (last : lastDescription? bodies index = some d) :
    ∃ body ∈ bodies, Message.decode? body = some (.info (.ofDocument d)) := by
  have described := (List.mem_filter.1 (List.mem_of_getLast? last)).1
  rcases List.mem_filterMap.1 described with ⟨body, mem, here⟩
  rcases Option.filter_eq_some_iff.1 here with ⟨parsed, isInfo⟩
  refine ⟨body, mem, ?_⟩
  rw [Message.decode?, parsed, Option.map_some]
  exact congrArg some (Message.ofDocument_eq_info_iff.2 ⟨of_decide_eq_true isInfo, rfl⟩)

namespace Session

variable {session : Session σ} {table : CallTable} {store : BufferStore σ} {body : Bytes}

/-! ## One message -/

/-- Data change nothing but the process announced last. -/
theorem acceptData_session (session : Session σ) (data : CallData) :
    ∃ pid, (session.acceptData data).2 = { session with pid } := by
  unfold acceptData
  split
  · exact ⟨_, rfl⟩
  · split
    · exact ⟨_, rfl⟩
    · split
      · split
        · exact ⟨_, rfl⟩
        · exact ⟨_, rfl⟩
      · split
        · exact ⟨_, rfl⟩
        · exact ⟨_, rfl⟩

theorem accept_data (data : CallData) :
    session.accept table store (.data data)
      = ((session.acceptData data).1.map some, (session.acceptData data).2) := by
  unfold accept
  dsimp only
  cases session.acceptData data with
  | mk answer after => cases answer <;> rfl

/-- Only descriptions change what is remembered. -/
theorem schema_accept {message : Message} (other : ∀ info, message ≠ .info info) :
    (session.accept table store message).2.schema = session.schema := by
  cases message with
  | info info => exact absurd rfl (other info)
  | buffer payload expected =>
    unfold accept
    dsimp only
    split
    · rfl
    · rfl
  | debug tid time text => rfl
  | data data =>
    rcases session.acceptData_session data with ⟨pid, after⟩
    rw [accept_data, after]

theorem schema_acceptBody :
    (session.acceptBody table store body).2.schema
      = match descriptionIn? body with
        | some d => session.schema.describe table (.ofDocument d)
        | none => session.schema := by
  unfold acceptBody descriptionIn? Message.decode?
  cases Document.parseBody? body with
  | none => rfl
  | some d =>
    rw [Option.map_some, Option.filter_some]
    dsimp only
    by_cases described : d.getString? "type" = some "info"
    · rw [if_pos (by simpa using described), Message.ofDocument_eq_info_iff.2 ⟨described, rfl⟩]
      rfl
    · rw [if_neg (by simpa using described)]
      apply schema_accept
      intro info isInfo
      exact described (Message.ofDocument_eq_info_iff.1 isInfo).1

/-- Data come to a call if their index is described, their values are as many as its names, and its
name is not that of an announcement. -/
theorem acceptData_call_iff {data : CallData} {call : ApiCall} :
    (session.acceptData data).1 = .ok (.call call)
      ↔ ∃ d args, session.schema.get? data.index = some d ∧ d.bind? data.args = some args ∧
          d.name ≠ ProcessInfo.processMarker ∧ d.name ≠ ProcessInfo.threadMarker ∧
          session.callRecord d data args = .call call := by
  unfold acceptData
  constructor
  · intro taken
    split at taken
    · cases taken
    · next d known =>
      split at taken
      · cases taken
      · next args bound =>
        split at taken
        · split at taken
          · cases taken
          · cases taken
        · next notProcess =>
          split at taken
          · cases taken
          · next notThread =>
            exact ⟨d, args, known, bound, notProcess, notThread, Except.ok.inj taken⟩
  · rintro ⟨d, args, known, bound, notProcess, notThread, record⟩
    rw [known]
    dsimp only
    rw [bound]
    dsimp only
    rw [if_neg notProcess, if_neg notThread, record]

theorem acceptBody_call_iff {call : ApiCall} :
    (session.acceptBody table store body).1 = .ok (some (.call call))
      ↔ ∃ data, Message.decode? body = some (.data data) ∧
          (session.acceptData data).1 = .ok (.call call) := by
  unfold acceptBody
  cases Message.decode? body with
  | none => exact ⟨nofun, nofun⟩
  | some message =>
    cases message with
    | info info => exact ⟨nofun, nofun⟩
    | buffer payload expected =>
      refine ⟨?_, nofun⟩
      intro taken
      unfold accept at taken
      dsimp only at taken
      split at taken
      · cases taken
      · cases taken
    | debug tid time text => exact ⟨nofun, nofun⟩
    | data data =>
      dsimp only
      rw [accept_data]
      constructor
      · intro taken
        refine ⟨data, rfl, ?_⟩
        cases answer : (session.acceptData data).1 with
        | error e => rw [answer] at taken; cases taken
        | ok record =>
          rw [answer] at taken
          exact congrArg Except.ok (Option.some.inj (Except.ok.inj taken))
      · rintro ⟨_, ⟨⟩, taken⟩
        rw [taken]
        rfl

end Session

/-! ## Values with their names -/

theorem takeFirst_eq (name : String) (args : NamedValues) :
    takeFirst name args
      = ((args.find? (·.1 == name)).map Prod.snd, args.eraseP (·.1 == name)) := by
  induction args with
  | nil => rfl
  | cons arg rest ih =>
    rcases arg with ⟨key, value⟩
    rw [takeFirst, ih]
    by_cases here : key = name
    · rw [if_pos here, List.find?_cons_of_pos (by simpa using here),
        List.eraseP_cons_of_pos (by simpa using here)]
      rfl
    · rw [if_neg here, List.find?_cons_of_neg (by simpa using here),
        List.eraseP_cons_of_neg (by simpa using here)]

/-- A list is what is erased from it and the rest. -/
theorem perm_find?_eraseP {α : Type} (p : α → Bool) (xs : List α) :
    xs.Perm ((xs.find? p).toList ++ xs.eraseP p) := by
  induction xs with
  | nil => exact .nil
  | cons x xs ih =>
    cases here : p x with
    | true =>
      rw [List.find?_cons_of_pos here, List.eraseP_cons_of_pos here]
      exact .refl _
    | false =>
      rw [List.find?_cons_of_neg (by simp [here]), List.eraseP_cons_of_neg (by simp [here])]
      exact (ih.cons x).trans List.perm_middle.symm

/-- An entry of one name is found beside that of another. -/
theorem find?_eraseP_of_ne {name other : String} (apart : name ≠ other) (args : NamedValues) :
    (args.eraseP (·.1 == name)).find? (·.1 == other) = args.find? (·.1 == other) := by
  induction args with
  | nil => rfl
  | cons arg rest ih =>
    by_cases here : arg.1 = name
    · rw [List.eraseP_cons_of_pos (by simpa using here), List.find?_cons_of_neg]
      rw [here]
      simpa using apart
    · rw [List.eraseP_cons_of_neg (by simpa using here), List.find?_cons, List.find?_cons, ih]

theorem ArgSpec.converter_eq (spec : ArgSpec) :
    spec.converter = if spec.tag = some "p" then .pointer else .default := by
  rw [converter]
  cases spec.tag with
  | none => rfl
  | some tag =>
    rw [Option.bind_some, Converter.ofTag?]
    by_cases pointer : tag = "p"
    · rw [if_pos pointer, if_pos (congrArg some pointer)]
      rfl
    · rw [if_neg pointer, if_neg (by simpa using pointer)]
      rfl

theorem length_args_ofInfo (table : CallTable) (d : Document) :
    (CallDescriptor.ofInfo table (.ofDocument d)).args.length = (argEntries d).length := by
  rw [CallDescriptor.ofInfo, List.length_map]
  exact List.length_map _

/-- A descriptor has a name and a conversion for each entry, so no value is cut off. -/
theorem bind?_ofInfo_iff {table : CallTable} {d : Document} {values : List Bson}
    {args : NamedValues} :
    (CallDescriptor.ofInfo table (.ofDocument d)).bind? values = some args
      ↔ values.length = (argEntries d).length ∧ namedBy d values = args := by
  have named : List.zipWith (fun arg raw => (arg.1, arg.2.apply raw))
      (CallDescriptor.ofInfo table (.ofDocument d)).args values = namedBy d values := by
    change List.zipWith _ (List.map _ (List.map ArgSpec.ofBson (argEntries d))) values = _
    rw [List.map_map, List.zipWith_map_left, namedBy]
    congr 1
    funext entry raw
    rw [Function.comp, namedAs, ArgSpec.converter_eq]
  rw [CallDescriptor.bind?, named, length_args_ofInfo]
  by_cases counted : values.length = (argEntries d).length
  · rw [if_pos counted, Option.some_inj]
    exact ⟨fun same => ⟨counted, same⟩, And.right⟩
  · rw [if_neg counted]
    exact ⟨fun same => absurd same.symm (Option.some_ne_none _), fun both => absurd both.1 counted⟩

/-! ## Calls -/

/-- The call of a record. -/
def Record.call? : Record → Option ApiCall
  | .debug .. => none
  | .process _ => none
  | .thread _ => none
  | .call c => some c

/-- Whether the body of a frame comes to a call behind others: it holds data, and this is the last
description of their index, with as many entries as there are values and the name of a call. -/
structure Announces (before : List Bytes) (body : Bytes) (d : Document) (data : CallData) :
    Prop where
  decoded : Message.decode? body = some (.data data)
  last : lastDescription? before data.index = some d
  counted : data.args.length = (argEntries d).length
  notProcess : (CallInfo.ofDocument d).name ≠ ProcessInfo.processMarker
  notThread : (CallInfo.ofDocument d).name ≠ ProcessInfo.threadMarker

/-- A body comes to a call by one description and one piece of data at most. -/
theorem Announces.unique {before : List Bytes} {body : Bytes} {d d' : Document}
    {data data' : CallData} (one : Announces before body d data)
    (other : Announces before body d' data') : d = d' ∧ data = data' := by
  have sameData : data = data' := by
    have same := one.decoded.symm.trans other.decoded
    cases same
    rfl
  subst sameData
  exact ⟨Option.some.inj (one.last.symm.trans other.last), rfl⟩

/-- What a call takes from a description and from data. -/
structure Follows (table : CallTable) (d : Document) (data : CallData) (call : ApiCall) :
    Prop where
  api : call.api = (CallInfo.ofDocument d).name
  category : call.category = (d.getString? "category").getD
    (Category.resolve table (CallInfo.ofDocument d).name []).name
  status : call.status =
    (((namedBy d data.args).find? (·.1 == "is_success")).bind (·.2.asInt?)).getD 1
  returnValue : call.returnValue =
    (((namedBy d data.args).find? (·.1 == "retval")).map Prod.snd).getD (.int 0)
  arguments : call.arguments =
    ((namedBy d data.args).eraseP (·.1 == "is_success")).eraseP (·.1 == "retval")
  /-- Every value is in its place. -/
  positions : (namedBy d data.args).length = data.args.length ∧
    ∀ (i : Nat) entry raw, (argEntries d)[i]? = some entry → data.args[i]? = some raw →
      (namedBy d data.args)[i]? = some (namedAs entry raw)
  /-- No value is lost or doubled. -/
  whole : (namedBy d data.args).Perm
    (((namedBy d data.args).find? (·.1 == "is_success")).toList
      ++ ((namedBy d data.args).find? (·.1 == "retval")).toList ++ call.arguments)
  tid : call.tid = data.tid
  time : call.time = data.time
  stacktrace : call.stacktrace = data.stacktrace
  uniqhash : call.uniqhash = data.uniqhash
  lastError : call.lastError = data.lastError
  ntStatus : call.ntStatus = data.ntStatus

theorem follows_callRecord {session : Session σ} {table : CallTable} {d : Document}
    {data : CallData} {call : ApiCall} (counted : data.args.length = (argEntries d).length)
    (record : session.callRecord (.ofInfo table (.ofDocument d)) data (namedBy d data.args)
      = .call call) :
    Follows table d data call := by
  have beside : "is_success" ≠ "retval" := by decide
  have result := find?_eraseP_of_ne beside (namedBy d data.args)
  have split : (namedBy d data.args).Perm
      (((namedBy d data.args).find? (·.1 == "is_success")).toList
        ++ ((namedBy d data.args).find? (·.1 == "retval")).toList
        ++ ((namedBy d data.args).eraseP (·.1 == "is_success")).eraseP (·.1 == "retval")) := by
    have first := perm_find?_eraseP (·.1 == "is_success") (namedBy d data.args)
    have second := perm_find?_eraseP (·.1 == "retval")
      ((namedBy d data.args).eraseP (·.1 == "is_success"))
    rw [result] at second
    rw [List.append_assoc]
    exact first.trans (second.append_left _)
  unfold Session.callRecord at record
  simp only [takeFirst_eq, result] at record
  cases record
  exact {
    api := rfl
    category := rfl
    status := by rw [Option.bind_map]; rfl
    returnValue := rfl
    arguments := rfl
    positions := by
      constructor
      · rw [namedBy, List.length_zipWith, ← counted, Nat.min_self]
      · intro i entry raw entryAt rawAt
        rw [namedBy, List.getElem?_zipWith, entryAt, rawAt]
    whole := split
    tid := rfl
    time := rfl
    stacktrace := rfl
    uniqhash := rfl
    lastError := rfl
    ntStatus := rfl }

namespace Receiver

variable {r : Receiver σ} {before : List Bytes} {body : Bytes}

/-! ## What a receiver remembers -/

/-- Whether a receiver remembers the last descriptions of all indices. -/
def Informed (r : Receiver σ) (before : List Bytes) : Prop :=
  ∀ index, r.session.schema.get? index
    = (lastDescription? before index).map fun d => .ofInfo r.table (.ofDocument d)

theorem informed_start (source : Source) (table : CallTable) (store : BufferStore σ) (kept : σ) :
    (start source table store kept).Informed [] :=
  fun _ => rfl

theorem takeBody_session (r : Receiver σ) (body : Bytes) :
    (r.takeBody body).2.table = r.table ∧
      (r.takeBody body).2.session = (r.session.acceptBody r.table r.store body).2 := by
  have taken := r.taken_takeBody body
  cases outcome : r.takeBody body with
  | mk step t =>
    rw [outcome] at taken
    cases taken with
    | yielded accepted => exact ⟨rfl, by rw [accepted]⟩
    | skipped accepted => exact ⟨rfl, by rw [accepted]⟩
    | dropped refused mild => exact ⟨rfl, by rw [refused]; rfl⟩
    | ended refused fatal => exact ⟨rfl, by rw [refused]; rfl⟩

/-- A frame with a description is remembered, and no other frame changes what is. -/
theorem Informed.takeBody (informed : r.Informed before) (body : Bytes) :
    (r.takeBody body).2.Informed (before ++ [body]) := by
  intro index
  rcases takeBody_session r body with ⟨sameTable, sameSession⟩
  rw [sameTable, sameSession, Session.schema_acceptBody, lastDescription?_concat]
  cases descriptionIn? body with
  | none => exact informed index
  | some d =>
    rw [Option.filter_some]
    dsimp only
    rw [Schema.get?, Schema.describe, SortedMap.get?_insert]
    by_cases here : (CallInfo.ofDocument d).index = index
    · rw [if_pos here.symm, if_pos (by simpa using here)]
      rfl
    · rw [if_neg (Ne.symm here), if_neg (by simpa using here)]
      exact informed index

theorem Informed.feed (informed : r.Informed before) {bodies : List Bytes}
    (running : (r.feed bodies).2.done = false) :
    (r.feed bodies).2.Informed (before ++ bodies) := by
  induction bodies generalizing r before with
  | nil => rwa [List.append_nil]
  | cons body later ih =>
    cases done : r.done with
    | true =>
      rw [feed_of_done done, done] at running
      cases running
    | false =>
      rw [feed_cons done] at running ⊢
      have next := ih (informed.takeBody body) running
      rwa [List.append_assoc] at next

theorem takeBody_yielded_iff {record : Record} :
    (r.takeBody body).1 = .yielded record
      ↔ (r.session.acceptBody r.table r.store body).1 = .ok (some record) := by
  have taken := r.taken_takeBody body
  cases outcome : r.takeBody body with
  | mk step t =>
    rw [outcome] at taken
    cases taken with
    | yielded accepted =>
      rw [accepted]
      exact ⟨fun same => by cases same; rfl, fun same => by cases same; rfl⟩
    | skipped accepted =>
      rw [accepted]
      exact ⟨nofun, nofun⟩
    | dropped refused mild =>
      rw [refused]
      exact ⟨nofun, nofun⟩
    | ended refused fatal =>
      rw [refused]
      exact ⟨nofun, nofun⟩

theorem Informed.yields_call_iff (informed : r.Informed before) {call : ApiCall} :
    (r.takeBody body).1 = .yielded (.call call)
      ↔ ∃ data d, Announces before body d data ∧
          r.session.callRecord (.ofInfo r.table (.ofDocument d)) data (namedBy d data.args)
            = .call call := by
  rw [takeBody_yielded_iff, Session.acceptBody_call_iff]
  constructor
  · rintro ⟨data, decoded, taken⟩
    rcases Session.acceptData_call_iff.1 taken with
      ⟨descriptor, args, known, bound, notProcess, notThread, record⟩
    rw [informed data.index] at known
    rcases Option.map_eq_some_iff.1 known with ⟨d, last, rfl⟩
    rcases bind?_ofInfo_iff.1 bound with ⟨counted, rfl⟩
    exact ⟨data, d, ⟨decoded, last, counted, notProcess, notThread⟩, record⟩
  · rintro ⟨data, d, announces, record⟩
    have known := informed data.index
    rw [announces.last] at known
    exact ⟨data, announces.decoded, Session.acceptData_call_iff.2 ⟨_, _, known,
      bind?_ofInfo_iff.2 ⟨announces.counted, rfl⟩, announces.notProcess, announces.notThread,
      record⟩⟩

/-! ## Whole streams -/

/-- The bodies that a receiver takes one after another, each with what it comes to. -/
def trail (r : Receiver σ) : List Bytes → List (Bytes × Step)
  | [] => []
  | body :: later =>
    if r.done then []
    else (body, (r.takeBody body).1) :: (r.takeBody body).2.trail later

theorem trail_of_done (done : r.done = true) (bodies : List Bytes) : r.trail bodies = [] := by
  cases bodies with
  | nil => rfl
  | cons body later => rw [trail, if_pos done]

theorem trail_cons (running : r.done = false) (body : Bytes) (later : List Bytes) :
    r.trail (body :: later)
      = (body, (r.takeBody body).1) :: (r.takeBody body).2.trail later := by
  rw [trail, if_neg (by rw [running]; exact Bool.false_ne_true)]

/-- The records are those of the frames that are reached. -/
theorem feed_eq_trail (r : Receiver σ) (bodies : List Bytes) :
    (r.feed bodies).1 = (r.trail bodies).flatMap (·.2.records) := by
  induction bodies generalizing r with
  | nil => rfl
  | cons body later ih =>
    cases done : r.done with
    | true =>
      rw [feed_of_done done, trail_of_done done]
      rfl
    | false => rw [feed_cons done, trail_cons done, List.flatMap_cons, ih]

/-- A frame leaves a running receiver running exactly if it does not end the stream. -/
theorem takeBody_done (running : r.done = false) (body : Bytes) :
    (r.takeBody body).1 ≠ .ended ∧ (r.takeBody body).2.done = false ∨
      (r.takeBody body).1 = .ended ∧ (r.takeBody body).2.done = true := by
  have taken := r.taken_takeBody body
  cases outcome : r.takeBody body with
  | mk step t =>
    rw [outcome] at taken
    cases taken with
    | yielded accepted => exact .inl ⟨nofun, running⟩
    | skipped accepted => exact .inl ⟨nofun, running⟩
    | dropped refused mild => exact .inl ⟨nofun, running⟩
    | ended refused fatal => exact .inr ⟨rfl, rfl⟩

/-- All frames are reached but those behind one that ends the stream. -/
theorem trail_reaches (running : r.done = false) (bodies : List Bytes) :
    ∃ unreached, bodies = (r.trail bodies).map Prod.fst ++ unreached ∧
      (unreached = [] ∨ ∃ front last, r.trail bodies = front ++ [(last, .ended)]) := by
  induction bodies generalizing r with
  | nil => exact ⟨[], rfl, .inl rfl⟩
  | cons body later ih =>
    rw [trail_cons running]
    rcases takeBody_done running body with ⟨-, runs⟩ | ⟨ended, done⟩
    · rcases ih runs with ⟨unreached, split, ends⟩
      refine ⟨unreached, ?_, ends.imp_right ?_⟩
      · rw [List.map_cons, List.cons_append, ← split]
      · rintro ⟨front, last, eq⟩
        exact ⟨_ :: front, last, by rw [eq, List.cons_append]⟩
    · rw [trail_of_done done, ended]
      exact ⟨later, rfl, .inr ⟨[], body, rfl⟩⟩

/-- A frame that is reached is taken by the receiver that the frames before it have left. -/
theorem trail_split {bodies : List Bytes} {front back : List (Bytes × Step)} {step : Step}
    (eq : r.trail bodies = front ++ (body, step) :: back) :
    (r.feed (front.map Prod.fst)).2.done = false ∧
      ((r.feed (front.map Prod.fst)).2.takeBody body).1 = step ∧ (step = .ended → back = []) := by
  induction front generalizing r bodies with
  | nil =>
    cases bodies with
    | nil => cases eq
    | cons next later =>
      cases done : r.done with
      | true =>
        rw [trail_of_done done] at eq
        cases eq
      | false =>
        rw [trail_cons done] at eq
        cases eq
        refine ⟨done, rfl, ?_⟩
        intro ended
        rcases takeBody_done done body with ⟨runs, -⟩ | ⟨-, stopped⟩
        · exact absurd ended runs
        · exact trail_of_done stopped later
  | cons earlier front ih =>
    cases bodies with
    | nil => cases eq
    | cons next later =>
      cases done : r.done with
      | true =>
        rw [trail_of_done done] at eq
        cases eq
      | false =>
        rw [trail_cons done, List.cons_append] at eq
        rcases List.cons_eq_cons.1 eq with ⟨rfl, rest⟩
        rw [List.map_cons, feed_cons done]
        exact ih rest

theorem table_feed (r : Receiver σ) (bodies : List Bytes) : (r.feed bodies).2.table = r.table := by
  induction bodies generalizing r with
  | nil => rfl
  | cons body later ih =>
    cases done : r.done with
    | true => rw [feed_of_done done]
    | false => rw [feed_cons done, ih, (takeBody_session r body).1]

/-- The records of a stream are those of the frames that are reached, and a frame comes to a call
exactly if it holds data of an index whose last description has the name of a call and as many
entries as there are values; the call then follows that description. -/
theorem calls_follow_descriptions (table : CallTable) (store : BufferStore σ) (kept : σ)
    {source : Source} {bytes : Bytes} {stop : Option String}
    (supply : source.Supplies bytes stop) :
    let r := start source table store kept
    let trail := r.trail (Frame.bodies bytes)
    r.records.1 = trail.flatMap (·.2.records) ∧
      (∃ unreached, Frame.bodies bytes = trail.map Prod.fst ++ unreached ∧
        (unreached = [] ∨ ∃ front last, trail = front ++ [(last, .ended)])) ∧
      ∀ front body step back, trail = front ++ (body, step) :: back →
        ((∃ call, step = .yielded (.call call)) ↔
          ∃ d data, Announces (front.map Prod.fst) body d data) ∧
        (∀ call, step = .yielded (.call call) →
          ∃ d data, Announces (front.map Prod.fst) body d data ∧ Follows table d data call) ∧
        (step = .ended → back = []) := by
  intro r trail
  refine ⟨?_, trail_reaches rfl _, ?_⟩
  · rcases records_of_supplies (r := r) supply rfl with ⟨after, run⟩
    rw [run]
    exact feed_eq_trail r _
  · intro front body step back split
    rcases trail_split split with ⟨running, taken, last⟩
    have informed := (informed_start source table store kept).feed running
    rw [List.nil_append] at informed
    have sameTable : (r.feed (front.map Prod.fst)).2.table = table := table_feed r _
    refine ⟨⟨?_, ?_⟩, ?_, last⟩
    · rintro ⟨call, rfl⟩
      rcases informed.yields_call_iff.1 taken with ⟨data, d, announces, -⟩
      exact ⟨d, data, announces⟩
    · rintro ⟨d, data, announces⟩
      exact ⟨_, taken.symm.trans (informed.yields_call_iff.2 ⟨data, d, announces, rfl⟩)⟩
    · rintro call rfl
      rcases informed.yields_call_iff.1 taken with ⟨data, d, announces, record⟩
      rw [sameTable] at record
      exact ⟨d, data, announces, follows_callRecord announces.counted record⟩

/-- An index is described twice. The second time names repeat, and the success and the result stand
between the arguments. -/
def openings : List Message :=
  [.info ⟨7, "NtOpen", none, [.bare "handle"], .empty, .empty⟩,
    .info ⟨7, "NtOpenFile", some "file",
      [⟨"x", some "p"⟩, .bare "retval", .bare "is_success", .bare "x", .bare "is_success"],
      .empty, .empty⟩]

/-- Data for the second description. -/
def opened : CallData where
  index := 7
  tid := 3
  time := .zero
  args := [.int32 (-1), .int64 5, .boolean false, .int32 (-1), .int64 9]
  stacktrace := []
  uniqhash := .int 0
  lastError := none
  ntStatus := none

/-- The bodies of the descriptions. -/
def openingBodies : List Bytes := openings.filterMap Message.encode?

/-- The body of the data. -/
def openedBody : Bytes := ((Message.data opened).encode?).getD []

/-- All frames. -/
def openedBytes : Bytes := (openingBodies ++ [openedBody]).flatMap Frame.encode

set_option maxRecDepth 4000 in
theorem calls_follow_descriptions_opened :
    ∃ call, .call call ∈
        (start (.ofBytes openedBytes none []) (.ofLists [] [] [] []) .discard ()).records.1 ∧
      call.api = "NtOpenFile" ∧ call.category = "file" ∧ call.status = 0 ∧
      call.returnValue = .int 5 ∧
      call.arguments
        = [("x", .text "0xffffffff"), ("x", .int 4294967295), ("is_success", .int 9)] := by
  let source := Source.ofBytes openedBytes none []
  have supply : source.Supplies openedBytes none := Source.supplies_ofBytes _
  rcases calls_follow_descriptions (.ofLists [] [] [] []) .discard () supply with
    ⟨records, -, frames⟩
  let r := start source (.ofLists [] [] [] []) .discard ()
  have reached : (r.trail (Frame.bodies openedBytes)).map Prod.fst
      = openingBodies ++ [openedBody] := by decide +kernel
  rcases List.map_eq_append_iff.1 reached with ⟨front, rest, split, before, here⟩
  rcases List.map_eq_singleton_iff.1 here with ⟨⟨body, step⟩, rfl, rfl⟩
  rcases frames front _ step [] split with ⟨isCall, follows, -⟩
  have last : lastDescription? openingBodies 7 = openings[1].toDocument := by rfl
  have announces : Announces (front.map Prod.fst) openedBody openings[1].toDocument opened := by
    rw [before]
    exact ⟨rfl, rfl, rfl, by decide, by decide⟩
  rcases isCall.2 ⟨_, _, announces⟩ with ⟨call, rfl⟩
  rcases follows call rfl with ⟨d, data, same, following⟩
  rcases same.unique announces with ⟨rfl, rfl⟩
  have pointer : Converter.pointerText 8 0xffffffff = "0xffffffff" := by decide +kernel
  refine ⟨call, ?_, following.api, following.category, following.status, following.returnValue,
    following.arguments.trans ?_⟩
  · rw [records, split, List.flatMap_append]
    exact List.mem_append_right _ List.mem_cons_self
  · rw [← pointer]
    rfl

end Receiver

end CallTrace
