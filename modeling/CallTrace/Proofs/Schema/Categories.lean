import CallTrace.Proofs.Schema.Descriptions

/-!
The category of a call on both sides. A sender decides it by the call's name and its arguments; a
receiver that is told no category decides by the name alone. `categories_agree_iff` says when this
makes a difference: only for a name that the call table does not list, and then exactly if the name
of an argument mentions a file name.
-/

namespace CallTrace

/-- Whether a call table lists a name under any category. -/
def CallTable.Lists (table : CallTable) (name : String) : Prop :=
  table.isNetwork name = true ∨ table.isFilesystem name = true ∨ table.isProcess name = true

instance (table : CallTable) (name : String) : Decidable (table.Lists name) :=
  inferInstanceAs (Decidable (_ ∨ _))

namespace Category

theorem name_injective {c d : Category} (same : c.name = d.name) : c = d := by
  have word := congrArg ofName? same
  rwa [ofName?_name, ofName?_name, Option.some_inj] at word

/-! ## Mentions of file names -/

/-- The search for a word finds it wherever it stands, and nothing else. -/
theorem occursIn_iff_infix {word cs : List Char} : occursIn word cs = true ↔ word <:+: cs := by
  induction cs with
  | nil => rw [occursIn, List.isEmpty_iff, List.infix_nil]
  | cons c rest ih =>
    rw [occursIn, Bool.or_eq_true, ih, List.isPrefixOf_iff_prefix, List.infix_cons_iff]

/-- Whether a text mentions a file name. -/
def MentionsFile (text : String) : Prop := fileMark <:+: text.toList

instance (text : String) : Decidable (MentionsFile text) :=
  decidable_of_iff _ occursIn_iff_infix

theorem mentionsFile_iff {args : NamedValues} :
    mentionsFile args = true ↔
      ∃ arg ∈ args, MentionsFile arg.1 ∨ ∃ text, arg.2 = .text text ∧ MentionsFile text := by
  rw [mentionsFile, List.any_eq_true]
  refine exists_congr fun arg => and_congr_right fun _ => ?_
  rw [Bool.or_eq_true, occursIn_iff_infix]
  refine or_congr_right ?_
  cases arg.2 <;> simp [Value.asText?, occursIn_iff_infix, MentionsFile]

/-! ## What decides -/

variable {table : CallTable} {name : String}

/-- The arguments have no part in the category of a call that the table lists. -/
theorem resolve_of_lists (listed : table.Lists name) (args : NamedValues) :
    resolve table name args = resolve table name [] := by
  unfold resolve
  rcases listed with network | files | process
  · rw [if_pos network, if_pos network]
  · rw [if_pos files, if_pos files]
  · rw [if_pos process, if_pos process]

/-- The arguments alone decide the category of a call that the table does not list. -/
theorem resolve_of_unlisted (unlisted : ¬table.Lists name) (args : NamedValues) :
    resolve table name args = if mentionsFile args then .filesystem else .unknown := by
  unfold CallTable.Lists at unlisted
  push Not at unlisted
  rw [resolve, if_neg unlisted.1, if_neg unlisted.2.1, if_neg unlisted.2.2]

/-- A call has the same category without its arguments exactly if the table lists it or none of them
mentions a file name. -/
theorem resolve_nil_eq_iff (table : CallTable) (name : String) (args : NamedValues) :
    resolve table name [] = resolve table name args ↔
      table.Lists name ∨ mentionsFile args = false := by
  by_cases listed : table.Lists name
  · rw [resolve_of_lists listed args]
    exact ⟨fun _ => .inl listed, fun _ => rfl⟩
  · rw [resolve_of_unlisted listed, resolve_of_unlisted listed, or_iff_right listed]
    cases mentionsFile args with
    | true => exact ⟨nofun, nofun⟩
    | false => exact ⟨fun _ => rfl, fun _ => rfl⟩

end Category

namespace Schema

open Category

/-- What is stored for a description that leaves the category open is decided by the name alone. -/
theorem get?_describe_of_open (schema : Schema) (table : CallTable) {info : CallInfo}
    (open' : info.category = none) :
    ∃ stored, (schema.describe table info).get? info.index = some stored ∧
      stored.category = (resolve table info.name []).name := by
  refine ⟨.ofInfo table info, ?_, ?_⟩
  · rw [get?_describe, CallInfo.descriptor?, if_pos rfl, Option.some_or]
  · rw [CallDescriptor.ofInfo, open']
    rfl

/-- If no text among the arguments of a call mentions a file name, then a receiver that is told no
category stores the one that a sender would have told, unless the call table does not list the
name and the name of an argument mentions a file name. The sender then takes it for a call on files,
and the receiver does not know. -/
theorem categories_agree_iff (schema : Schema) (table : CallTable) (info : CallInfo)
    {args : NamedValues} (open' : info.category = none)
    (texts : ∀ arg ∈ args, ∀ text, arg.2 = .text text → ¬MentionsFile text) :
    ∃ stored, (schema.describe table info).get? info.index = some stored ∧
      (stored.category = (resolve table info.name args).name ↔
        table.Lists info.name ∨ ∀ arg ∈ args, ¬MentionsFile arg.1) ∧
      (stored.category ≠ (resolve table info.name args).name →
        stored.category = Category.unknown.name ∧
          resolve table info.name args = .filesystem) := by
  rcases schema.get?_describe_of_open table open' with ⟨stored, here, category⟩
  have mentions : mentionsFile args = false ↔ ∀ arg ∈ args, ¬MentionsFile arg.1 := by
    rw [← Bool.not_eq_true, mentionsFile_iff]
    constructor
    · intro silent arg mem mention
      exact silent ⟨arg, mem, .inl mention⟩
    · rintro silent ⟨arg, mem, mention | ⟨text, value, mention⟩⟩
      · exact silent arg mem mention
      · exact texts arg mem text value mention
  have agree : stored.category = (resolve table info.name args).name ↔
      table.Lists info.name ∨ ∀ arg ∈ args, ¬MentionsFile arg.1 := by
    rw [category, ← mentions, ← resolve_nil_eq_iff]
    exact ⟨name_injective, congrArg Category.name⟩
  refine ⟨stored, here, agree, fun differ => ?_⟩
  rw [Ne, agree, not_or, ← mentions, Bool.not_eq_false] at differ
  rw [category, resolve_of_unlisted differ.1, resolve_of_unlisted differ.1, differ.2]
  exact ⟨rfl, rfl⟩

/-- The description of a call on a file, by a monitor that sends no categories. -/
def uncategorised : CallInfo :=
  ⟨7, "statx", none, (["is_success", "retval", "filename"]).map .bare, .empty, .empty⟩

theorem categories_agree_iff_uncategorised :
    (∃ stored, (empty.describe (.ofLists [] [] ["statx"] []) uncategorised).get? 7 = some stored ∧
      stored.category = "filesystem") ∧
    ∃ stored, (empty.describe (.ofLists [] [] [] []) uncategorised).get? 7 = some stored ∧
      stored.category = "unknown" ∧
      resolve (.ofLists [] [] [] []) "statx" [("filename", .text "/tmp/x")] = .filesystem := by
  have texts : ∀ arg ∈ ([("filename", .text "/tmp/x")] : NamedValues), ∀ text,
      arg.2 = .text text → ¬MentionsFile text := by
    intro arg mem text value
    obtain rfl := List.mem_singleton.1 mem
    obtain rfl : "/tmp/x" = text := by simpa using value
    decide
  constructor
  · rcases categories_agree_iff empty (.ofLists [] [] ["statx"] []) uncategorised rfl texts with
      ⟨stored, here, agree, -⟩
    refine ⟨stored, here, (agree.2 (.inl (by decide))).trans ?_⟩
    decide
  · rcases categories_agree_iff empty (.ofLists [] [] [] []) uncategorised rfl texts with
      ⟨stored, here, agree, differ⟩
    refine ⟨stored, here, differ fun same => ?_⟩
    rcases agree.1 same with listed | silent
    · exact absurd listed (by decide)
    · exact silent _ List.mem_cons_self (by decide)

/-- Both sides need not agree, although the description has the names of the arguments. -/
theorem not_categories_agree_uncategorised :
    ¬ ∀ (table : CallTable) (info : CallInfo) (args : NamedValues), info.category = none →
      info.args.map ArgSpec.name = ["is_success", "retval"] ++ args.map Prod.fst →
      (∀ arg ∈ args, ∀ text, arg.2 = .text text → ¬MentionsFile text) →
      ((empty.describe table info).get? info.index).map (·.category)
        = some (resolve table info.name args).name := by
  intro claim
  have same := claim (.ofLists [] [] [] []) uncategorised [("filename", .int 3)] rfl rfl (by simp)
  revert same
  decide +kernel

end Schema

end CallTrace
