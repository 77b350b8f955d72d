import CallTrace.Proofs.Frame.Sequence
import CallTrace.Proofs.Sender.Reliable

/-!
What a sender says of calls. `Emission.said` has the messages of one call by the calls before it:
its description, if its index is one that can be described and no earlier call had it, and then its
data. `calls_speak_the_language` says that the frames of any calls are the messages `spoken` of them
and nothing else, and that the table of described indices is what these messages describe.

The books of a sender agree with the calls so far (`InTune`); that is kept by each call, and gives
the messages of the next one.
-/

namespace CallTrace

/-! ## Messages and their frames -/

mutual

theorem Value.printable_toBson (value : Value) : Bson.printable value.toBson = true := by
  match value with
  | .null => rfl
  | .bool b => rfl
  | .int n => rfl
  | .float x => rfl
  | .text s => rfl
  | .list items =>
    rw [toBson, Bson.printable]
    exact itemsPrintable_toBsons items

theorem Value.itemsPrintable_toBsons (items : List Value) :
    Bson.itemsPrintable (toBsons items) = true := by
  match items with
  | [] => rfl
  | item :: later =>
    rw [toBsons, Bson.itemsPrintable, Bool.and_eq_true]
    exact ⟨printable_toBson item, itemsPrintable_toBsons later⟩

end

theorem Bson.itemsPrintable_of_forall {items : List Bson}
    (all : ∀ item ∈ items, printable item = true) : itemsPrintable items = true := by
  induction items with
  | nil => rfl
  | cons item later ih =>
    rcases List.forall_mem_cons.1 all with ⟨here, others⟩
    rw [itemsPrintable, Bool.and_eq_true]
    exact ⟨here, ih others⟩

theorem Bson.itemsReadable_of_forall {items : List Bson} (all : ∀ item ∈ items, Readable item) :
    ItemsReadable items := by
  induction items with
  | nil => trivial
  | cons item later ih =>
    rcases List.forall_mem_cons.1 all with ⟨here, others⟩
    rw [ItemsReadable]
    exact ⟨here, ih others⟩

namespace Message

/-- The body of the frame of a message: its document without its length. -/
def frameBody (message : Message) : Bytes := message.toDocument.print.drop Frame.lengthSize

/-- A message that can be written, and that is read back. -/
structure Sound (message : Message) : Prop where
  written : Bson.fieldsPrintable message.toDocument = true
  plain : message.Plain

theorem Sound.encode?_eq {message : Message} (sound : message.Sound) :
    message.encode? = some message.frameBody := by
  rw [encode?, Document.print?, if_pos sound.written]
  rfl

/-- The frame of a message is its document. -/
theorem Sound.encode_frameBody {message : Message} (sound : message.Sound) :
    Frame.encode message.frameBody = message.toDocument.print :=
  (encode_of_encode? sound.encode?_eq).2

theorem Sound.length_frameBody {message : Message} (sound : message.Sound) :
    message.frameBody.length + Frame.lengthSize = message.toDocument.print.length := by
  rw [← sound.encode_frameBody, Frame.length_encode]

theorem Sound.body?_eq {message : Message} (sound : message.Sound)
    (fits : message.toDocument.print.length ≤ Frame.maxLength) :
    message.body? = some message.frameBody := by
  refine Attempt.body?_eq_some_iff.2 ⟨sound.encode?_eq, ?_⟩
  rw [sound.length_frameBody]
  exact Frame.lt_capacity_of_le_maxLength fits

theorem Sound.decode?_frameBody {message : Message} (sound : message.Sound)
    (fits : message.toDocument.print.length ≤ Frame.maxLength) :
    decode? message.frameBody = some message.received := by
  refine decode?_of_encode? sound.encode?_eq sound.plain ?_
  rw [sound.length_frameBody]
  have limit : Frame.maxLength < 0x80000000 := by decide
  omega

end Message

/-- On a transport that never fails, all messages are written that have a frame. -/
theorem sendAll_of_takesAll {w : Sink} (reliable : w.TakesAll) {messages : List Message}
    (framed : ∀ message ∈ messages, message.body? = some message.frameBody) :
    ∃ v, sendAll w messages = (.ok (), v) ∧ v.TakesAll ∧ v.accepted.toList
      = w.accepted.toList ++ (messages.map Message.frameBody).flatMap Frame.encode := by
  induction messages generalizing w with
  | nil => exact ⟨w, rfl, reliable, (List.append_nil _).symm⟩
  | cons message later ih =>
    rcases List.forall_mem_cons.1 framed with ⟨here, others⟩
    have body : (Attempt.mk message w).body? = some message.frameBody := here
    rcases Attempt.of_takesAll (a := ⟨message, w⟩) reliable with ⟨after, succeeds, front⟩
    have succeeded := succeeds.2 (by rw [body]; rfl)
    have accepted := (Attempt.mk message w).accepted_after
    rw [front, body] at accepted
    cases outcome : (Attempt.mk message w).outcome with
    | mk result v =>
      rw [Attempt.Succeeded, outcome] at succeeded
      obtain rfl : result = .ok () := succeeded
      rw [Attempt.after, outcome] at after accepted
      rcases ih after others with ⟨u, sent, takes, all⟩
      refine ⟨u, ?_, takes, ?_⟩
      · rw [sendAll, outcome]
        exact sent
      · rw [all, accepted, List.map_cons, List.flatMap_cons, List.append_assoc]
        rfl

namespace Sender

/-! ## Calls and what is said of them -/

/-- A call, and what the clocks show when it is sent. -/
structure Emission where
  clock : Clock
  index : UInt32
  name : String
  success : Bool
  result : Value
  args : NamedValues

namespace Emission

/-- The use of a sender that sends the call. -/
def request (e : Emission) : Request :=
  ⟨e.clock, .emit e.index e.name e.success e.result e.args⟩

/-- An argument as it is sent: integers and truth values as integers, all else as its text. -/
def sentArgument : Value → Bson
  | .int n => .int64 n
  | .bool b => .int64 (if b then 1 else 0)
  | value => .string value.display

/-- The description of the call. -/
def info (table : CallTable) (e : Emission) : CallInfo where
  index := wireIndex e.index
  name := e.name
  category := some (Category.resolve table e.name e.args).name
  args := ("is_success" :: "retval" :: e.args.map Prod.fst).map .bare
  valueTables := .empty
  maskTables := .empty

/-- The data of the call, which belongs to no process. -/
def data (e : Emission) : CallData where
  index := wireIndex e.index
  tid := -1
  time := e.clock.elapsed
  args := .int64 (if e.success then 1 else 0) :: e.result.toBson ::
    e.args.map fun arg => sentArgument arg.2
  stacktrace := []
  uniqhash := .null
  lastError := none
  ntStatus := none

/-- Whether the call is the first of an index that can be described. -/
def Opens (earlier : List Emission) (e : Emission) : Prop :=
  e.index.toNat < 512 ∧ ∀ before ∈ earlier, before.index ≠ e.index

instance (earlier : List Emission) (e : Emission) : Decidable (e.Opens earlier) :=
  inferInstanceAs (Decidable (_ ∧ _))

/-- The messages of a call behind earlier calls. -/
def said (table : CallTable) (earlier : List Emission) (e : Emission) : List Message :=
  (if e.Opens earlier then [.info (e.info table)] else []) ++ [.data e.data]

end Emission

/-- The messages of calls behind earlier calls. -/
def spoken (table : CallTable) (earlier : List Emission) : List Emission → List Message
  | [] => []
  | e :: later => e.said table earlier ++ spoken table (e :: earlier) later

/-! ## All messages can be written and are read back -/

namespace Emission

theorem coerce_eq (value : Value) :
    ArgFormat.coerce (ArgFormat.ofValue value) value = sentArgument value := by
  cases value <;> rfl

theorem sound_info (table : CallTable) (e : Emission) : (Message.info (e.info table)).Sound := by
  refine ⟨?_, trivial, trivial⟩
  have specs : Bson.itemsPrintable ((e.info table).args.map ArgSpec.toBson) = true := by
    refine Bson.itemsPrintable_of_forall fun item mem => ?_
    rcases List.mem_map.1 mem with ⟨spec, among, rfl⟩
    rcases List.mem_map.1 among with ⟨name, -, rfl⟩
    rfl
  have document : (Message.info (e.info table)).toDocument
      = [("I", .int64 (e.info table).index), ("name", .string e.name), ("type", .string "info"),
          ("args", .array ((e.info table).args.map ArgSpec.toBson)),
          ("category", .string (Category.resolve table e.name e.args).name)] := rfl
  rw [document]
  simp [Bson.fieldsPrintable, Bson.printable, Bson.zeroFree, specs]

theorem printable_of_mem_data {e : Emission} {item : Bson} (mem : item ∈ e.data.args) :
    Bson.printable item = true ∧ Bson.Readable item := by
  rcases List.mem_cons.1 mem with rfl | mem
  · exact ⟨rfl, trivial⟩
  · rcases List.mem_cons.1 mem with rfl | mem
    · exact ⟨e.result.printable_toBson, e.result.readable_toBson⟩
    · rcases List.mem_map.1 mem with ⟨⟨name, value⟩, -, rfl⟩
      cases value <;> exact ⟨rfl, trivial⟩

theorem sound_data (e : Emission) : (Message.data e.data).Sound := by
  refine ⟨?_, Bson.itemsReadable_of_forall fun item mem => (printable_of_mem_data mem).2⟩
  have items : Bson.itemsPrintable e.data.args = true :=
    Bson.itemsPrintable_of_forall fun item mem => (printable_of_mem_data mem).1
  have document : (Message.data e.data).toDocument
      = [("I", .int64 e.data.index), ("T", .int64 e.data.tid), ("t", .double e.data.time),
          ("args", .array e.data.args)] := rfl
  rw [document]
  simp [Bson.fieldsPrintable, Bson.printable, Bson.zeroFree, items]

theorem info_mem_said_iff {table : CallTable} {earlier : List Emission} {e : Emission}
    {info : CallInfo} :
    Message.info info ∈ e.said table earlier ↔ e.Opens earlier ∧ info = e.info table := by
  unfold said
  by_cases first : e.Opens earlier
  · rw [if_pos first]
    simp [first]
  · rw [if_neg first]
    simp [first]

theorem sound_of_mem_said {table : CallTable} {earlier : List Emission} {e : Emission}
    {message : Message} (mem : message ∈ e.said table earlier) : message.Sound := by
  rcases List.mem_append.1 mem with mem | mem
  · split at mem
    · obtain rfl := List.mem_singleton.1 mem
      exact e.sound_info table
    · cases mem
  · obtain rfl := List.mem_singleton.1 mem
    exact e.sound_data

end Emission

theorem sound_of_mem_spoken {table : CallTable} {earlier calls : List Emission}
    {message : Message} (mem : message ∈ spoken table earlier calls) : message.Sound := by
  induction calls generalizing earlier with
  | nil => cases mem
  | cons e later ih =>
    rcases List.mem_append.1 mem with mem | mem
    · exact Emission.sound_of_mem_said mem
    · exact ih mem

/-! ## The books of a sender -/

/-- A sender whose books agree with the calls so far, none of which set its process. -/
structure InTune (table : CallTable) (earlier : List Emission) (s : Sender) : Prop where
  table : s.table = table
  pid : s.pid = -1
  described : ∀ i, i ∈ s.described ↔ i.toNat < 512 ∧ ∃ before ∈ earlier, before.index = i

theorem inTune_start (sink : Sink) (table : CallTable) (clock : Clock) :
    InTune table [] (start sink table clock) := by
  refine ⟨rfl, rfl, fun i => ⟨fun mem => (by cases mem), ?_⟩⟩
  rintro ⟨-, before, mem, -⟩
  cases mem

variable {table : CallTable} {earlier : List Emission} {s : Sender}

theorem InTune.undescribed_iff (tune : InTune table earlier s) (e : Emission) :
    s.Undescribed e.index ↔ e.Opens earlier := by
  have known : s.described.contains e.index = true ↔
      e.index.toNat < 512 ∧ ∃ before ∈ earlier, before.index = e.index :=
    List.contains_iff_mem.trans (tune.described e.index)
  constructor
  · rintro ⟨small, fresh⟩
    exact ⟨small, fun before mem same => fresh (known.2 ⟨small, before, mem, same⟩)⟩
  · rintro ⟨small, fresh⟩
    refine ⟨small, fun again => ?_⟩
    rcases known.1 again with ⟨-, before, mem, same⟩
    exact fresh before mem same

theorem InTune.dataOf_eq (tune : InTune table earlier s) (e : Emission) :
    ({ s with clock := e.clock } : Sender).dataOf e.index e.success e.result e.args = e.data := by
  have args : List.zipWith (fun arg format => ArgFormat.coerce format arg.2) e.args
      (ArgFormat.ofArgs e.args) = e.args.map fun arg => Emission.sentArgument arg.2 := by
    rw [ArgFormat.ofArgs, List.zipWith_map_right, List.zipWith_self]
    exact List.map_congr_left fun arg _ => Emission.coerce_eq arg.2
  rw [dataOf, args, tune.pid]
  rfl

/-- One more call marks its index if it can be described. -/
theorem InTune.call (tune : InTune table earlier s) (e : Emission) :
    InTune table (e :: earlier)
      { s with
        clock := e.clock
        described := if e.Opens earlier then e.index :: s.described else s.described } := by
  refine ⟨tune.table, tune.pid, fun i => ?_⟩
  have more : (∃ before ∈ e :: earlier, before.index = i) ↔
      e.index = i ∨ ∃ before ∈ earlier, before.index = i := by
    simp only [List.mem_cons, exists_eq_or_imp]
  rw [more]
  by_cases first : e.Opens earlier
  · rw [if_pos first, List.mem_cons, tune.described i]
    constructor
    · rintro (rfl | ⟨small, before⟩)
      · exact ⟨first.1, .inl rfl⟩
      · exact ⟨small, .inr before⟩
    · rintro ⟨small, same | before⟩
      · exact .inl same.symm
      · exact .inr ⟨small, before⟩
  · rw [if_neg first, tune.described i]
    constructor
    · rintro ⟨small, before⟩
      exact ⟨small, .inr before⟩
    · rintro ⟨small, rfl | before⟩
      · -- The index is one that can be described, so an earlier call had it.
        by_cases before : ∃ before ∈ earlier, before.index = e.index
        · exact ⟨small, before⟩
        · exact absurd ⟨small, fun other mem same => before ⟨other, mem, same⟩⟩ first
      · exact ⟨small, before⟩

/-- A call comes to the messages that are said of it, and leaves the books in tune. -/
theorem InTune.prepare (tune : InTune table earlier s) (e : Emission) :
    ∃ t, s.prepare e.request = (e.said table earlier, t) ∧ t.sink = s.sink ∧
      InTune table (e :: earlier) t := by
  have infoEq : ({ s with clock := e.clock } : Sender).infoOf e.index e.name e.args
      = e.info table := by
    rw [← tune.table]
    rfl
  have prepared : s.prepare e.request
      = prepareCall { s with clock := e.clock } e.index e.name e.success e.result e.args := rfl
  have opens : Sender.Undescribed { s with clock := e.clock } e.index ↔ e.Opens earlier :=
    tune.undescribed_iff e
  have after := tune.call e
  rw [prepared, prepareCall, infoEq, tune.dataOf_eq e, Emission.said]
  by_cases first : e.Opens earlier
  · rw [if_pos first] at after
    rw [if_pos (opens.2 first), if_pos first]
    exact ⟨_, rfl, rfl, after⟩
  · rw [if_neg first] at after
    rw [if_neg (mt opens.1 first), if_neg first]
    exact ⟨_, rfl, rfl, after⟩

/-- Indices beyond the capacity leave the table of described indices as it is. -/
theorem described_perform_of_large (s : Sender) {e : Emission} (large : 512 ≤ e.index.toNat) :
    (s.perform e.request).2.described = s.described := by
  have known : ¬Sender.Undescribed { s with clock := e.clock } e.index := by
    rintro ⟨small, -⟩
    have size : capacity = 512 := rfl
    omega
  have prepared : s.prepare e.request
      = ([.data (dataOf { s with clock := e.clock } e.index e.success e.result e.args)],
          { s with clock := e.clock }) := if_neg known
  rw [perform_eq, prepared]

/-! ## Whole runs -/

/-- A run of calls on a transport that never fails. -/
theorem InTune.run (tune : InTune table earlier s) (reliable : s.sink.TakesAll)
    {calls : List Emission}
    (fits : ∀ message ∈ spoken table earlier calls,
      message.toDocument.print.length ≤ Frame.maxLength) :
    let r := s.run (calls.map Emission.request)
    r.1 = calls.map (fun _ => .ok ()) ∧
      r.2.sink.accepted.toList = s.sink.accepted.toList
        ++ ((spoken table earlier calls).map Message.frameBody).flatMap Frame.encode ∧
      InTune table (calls.reverse ++ earlier) r.2 := by
  intro r
  induction calls generalizing earlier s with
  | nil => exact ⟨rfl, (List.append_nil _).symm, tune⟩
  | cons e later ih =>
    rcases List.forall_mem_append.1 fits with ⟨here, others⟩
    rcases tune.prepare e with ⟨t, prepared, sink, after⟩
    have framed : ∀ message ∈ e.said table earlier, message.body? = some message.frameBody :=
      fun message mem => (Emission.sound_of_mem_said mem).body?_eq (here message mem)
    rcases sendAll_of_takesAll reliable framed with ⟨v, sent, takes, accepted⟩
    have performed : s.perform e.request = (.ok (), { t with sink := v }) := by
      rw [perform_eq, prepared, sent]
    have kept : InTune table (e :: earlier) { t with sink := v } :=
      ⟨after.table, after.pid, after.described⟩
    rcases ih kept takes others with ⟨results, written, tuned⟩
    have ran : r = (.ok () :: (Sender.run { t with sink := v } (later.map Emission.request)).1,
        (Sender.run { t with sink := v } (later.map Emission.request)).2) := by
      change s.run (e.request :: later.map Emission.request) = _
      rw [Sender.run, performed]
    rw [ran, List.map_cons, results]
    refine ⟨rfl, ?_, ?_⟩
    · rw [written, spoken, List.map_append, List.flatMap_append, ← List.append_assoc, ← accepted]
    · rw [List.reverse_cons, List.append_assoc, List.singleton_append]
      exact tuned

/-- A description is spoken of the indices of calls below the capacity, and of no others. -/
theorem exists_info_mem_spoken_iff (table : CallTable) (earlier calls : List Emission)
    (i : UInt32) :
    (∃ info, Message.info info ∈ spoken table earlier calls ∧ info.index = wireIndex i) ↔
      i.toNat < 512 ∧ (∀ before ∈ earlier, before.index ≠ i) ∧ ∃ e ∈ calls, e.index = i := by
  induction calls generalizing earlier with
  | nil =>
    constructor
    · rintro ⟨info, mem, -⟩
      cases mem
    · rintro ⟨-, -, e, mem, -⟩
      cases mem
  | cons e later ih =>
    constructor
    · rintro ⟨info, mem, same⟩
      rcases List.mem_append.1 mem with mem | mem
      · rcases Emission.info_mem_said_iff.1 mem with ⟨⟨small, fresh⟩, rfl⟩
        obtain rfl : e.index = i := wireIndex_injective same
        exact ⟨small, fresh, e, List.mem_cons_self, rfl⟩
      · rcases (ih (e :: earlier)).1 ⟨info, mem, same⟩ with ⟨small, fresh, other, among, here⟩
        exact ⟨small, (List.forall_mem_cons.1 fresh).2, other, List.mem_cons_of_mem e among, here⟩
    · rintro ⟨small, fresh, other, among, rfl⟩
      by_cases first : e.index = other.index
      · refine ⟨e.info table, List.mem_append_left _ ?_, congrArg wireIndex first⟩
        rw [← first] at small fresh
        exact Emission.info_mem_said_iff.2 ⟨⟨small, fresh⟩, rfl⟩
      · rcases List.mem_cons.1 among with rfl | among
        · exact absurd rfl first
        · have unused : ∀ before ∈ e :: earlier, before.index ≠ other.index :=
            List.forall_mem_cons.2 ⟨first, fresh⟩
          rcases (ih (e :: earlier)).2 ⟨small, unused, other, among, rfl⟩ with ⟨info, mem, same⟩
          exact ⟨info, List.mem_append_right _ mem, same⟩

/-- The frames of any calls on a transport that never fails are what is spoken of them: one
description for every index below the capacity, in front of its first data, and one frame of data
for every call. The table of described indices is what these frames describe. -/
theorem calls_speak_the_language (sink : Sink) (table : CallTable) (clock : Clock)
    (calls : List Emission) (reliable : sink.TakesAll)
    (fits : ∀ message ∈ spoken table [] calls,
      message.toDocument.print.length ≤ Frame.maxLength) :
    let r := (start sink table clock).run (calls.map Emission.request)
    r.1 = calls.map (fun _ => .ok ()) ∧
      (∃ bodies, r.2.sink.accepted.toList = sink.accepted.toList ++ bodies.flatMap Frame.encode ∧
        bodies.map Message.decode?
          = (spoken table [] calls).map (fun message => some message.received) ∧
        ∀ source : Source, source.ServesAll (bodies.flatMap Frame.encode) →
          ∃ t, Frame.readAll source = (bodies, none, t)) ∧
      (∀ i, i ∈ r.2.described ↔
        ∃ info, Message.info info ∈ spoken table [] calls ∧ info.index = wireIndex i) ∧
      (∀ i, 512 ≤ i.toNat → ∀ info, Message.info info ∈ spoken table [] calls →
        info.index ≠ wireIndex i) ∧
      ∀ (s : Sender) (e : Emission), 512 ≤ e.index.toNat →
        (s.perform e.request).2.described = s.described := by
  intro r
  rcases (inTune_start sink table clock).run reliable fits with ⟨results, accepted, tune⟩
  refine ⟨results, ⟨_, accepted, ?_, fun source serves => ?_⟩, fun i => ?_, ?_, ?_⟩
  · rw [List.map_map]
    exact List.map_congr_left fun message mem =>
      (sound_of_mem_spoken mem).decode?_frameBody (fits message mem)
  · have small : ∀ body ∈ (spoken table [] calls).map Message.frameBody,
        body.length + Frame.lengthSize ≤ Frame.maxLength := by
      intro body mem
      rcases List.mem_map.1 mem with ⟨message, among, rfl⟩
      rw [(sound_of_mem_spoken among).length_frameBody]
      exact fits message among
    rcases Frame.readAll_of_servesAll small serves with ⟨t, read, -⟩
    exact ⟨t, read⟩
  · rw [tune.described i, exists_info_mem_spoken_iff, List.append_nil]
    simp
  · intro i large info mem same
    have small := (exists_info_mem_spoken_iff table [] calls i).1 ⟨info, mem, same⟩
    omega
  · exact fun s e large => s.described_perform_of_large large

/-- Calls on both sides of the capacity, two of them of one index. -/
def aroundCapacity : List Emission :=
  [⟨⟨.zero, 0⟩, 512, "connect", true, .int 0, []⟩,
    ⟨⟨.zero, 0⟩, 7, "NtClose", true, .null, [("handle", .int 3), ("deep", .bool true)]⟩,
    ⟨⟨.zero, 0⟩, 511, "NtOpen", false, .int 5, [("name", .text "a")]⟩,
    ⟨⟨.zero, 0⟩, 7, "NtOpen", false, .int 5, []⟩]

theorem calls_speak_the_language_aroundCapacity :
    let sink := Sink.scripted (some 3) none [(2, .interrupted)] none
    let r := (start sink (.ofLists [] [] [] []) ⟨.zero, 0⟩).run
      (aroundCapacity.map Emission.request)
    let said := spoken (.ofLists [] [] [] []) [] aroundCapacity
    said.map Message.described? = [none, some 7, none, some 511, none, none] ∧
      said.map Message.carried? = [some 512, none, some 7, none, some 511, some 7] ∧
      r.1 = [.ok (), .ok (), .ok (), .ok ()] ∧
      (∃ bodies : List Bytes, r.2.sink.accepted.toList = bodies.flatMap Frame.encode ∧
        bodies.map Message.decode? = said.map fun message => some message.received) ∧
      7 ∈ r.2.described ∧ 512 ∉ r.2.described := by
  intro sink r said
  have reliable : sink.TakesAll := Sink.takesAll_scripted (by decide) (by decide)
  have fits : ∀ message ∈ said, message.toDocument.print.length ≤ Frame.maxLength := by
    decide +kernel
  rcases calls_speak_the_language sink (.ofLists [] [] [] []) ⟨.zero, 0⟩ aroundCapacity reliable
    fits with ⟨results, ⟨bodies, accepted, decoded, -⟩, described, never, -⟩
  have written : r.2.sink.accepted.toList = bodies.flatMap Frame.encode := by rw [accepted]; rfl
  have seven : (7 : UInt32).toNat < 512 ∧ (∀ before ∈ ([] : List Emission), before.index ≠ 7) ∧
      ∃ e ∈ aroundCapacity, e.index = 7 :=
    ⟨by decide, nofun, _, List.mem_cons_of_mem _ List.mem_cons_self, rfl⟩
  have known : 7 ∈ r.2.described :=
    (described 7).2 ((exists_info_mem_spoken_iff _ _ _ 7).2 seven)
  refine ⟨by decide +kernel, by decide +kernel, results, ⟨bodies, written, decoded⟩, known, ?_⟩
  intro mem
  rcases (described 512).1 mem with ⟨info, among, same⟩
  exact never 512 (by decide) info among same

end Sender

end CallTrace
