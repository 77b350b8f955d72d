import CallTrace.Proofs.Process.Filetime

/-!
The layouts of process announcements agree. `Announces` lists the fields with which monitors of all
generations announce one process, and `layouts_agree` says that each of these lists is read as the
same process, in any order and with any other fields among them.

A reader looks up every field by its name, so an announcement is what it has at the names of fields
(`ofLayout_congr`), and neither the order of different names nor other names can be seen there
(`lookup_of_presents`).
-/

namespace CallTrace

/-! ## Look-ups in lists of fields -/

section

variable {α β : Type} [BEq α] [LawfulBEq α]

theorem lookup_filter (keep : α → Bool) {key : α} (kept : keep key = true)
    (fields : List (α × β)) :
    List.lookup key (fields.filter fun field => keep field.1) = List.lookup key fields := by
  induction fields with
  | nil => rfl
  | cons field later ih =>
    rcases field with ⟨other, value⟩
    rw [List.filter_cons]
    cases here : keep other with
    | true => rw [if_pos rfl, List.lookup_cons, List.lookup_cons, ih]
    | false =>
      have differs : (key == other) = false := by
        rw [beq_eq_false_iff_ne]
        rintro rfl
        rw [kept] at here
        cases here
      rw [if_neg Bool.false_ne_true, ih, List.lookup_cons, differs]

/-- The order of fields with different names cannot be seen by their names. -/
theorem lookup_eq_of_perm {fields others : List (α × β)} (perm : fields.Perm others)
    (distinct : (fields.map Prod.fst).Nodup) (key : α) :
    List.lookup key fields = List.lookup key others := by
  induction perm with
  | nil => rfl
  | cons field _ ih =>
    rw [List.lookup_cons, List.lookup_cons, ih (List.nodup_cons.1 distinct).2]
  | swap first second later =>
    rcases first with ⟨name, value⟩
    rcases second with ⟨name', value'⟩
    simp only [List.map_cons, List.nodup_cons, List.mem_cons, not_or] at distinct
    simp only [List.lookup_cons]
    cases here : key == name with
    | false => rfl
    | true =>
      have differs : (key == name') = false := by
        rw [beq_eq_false_iff_ne, eq_of_beq here]
        exact Ne.symm distinct.1.1
      rw [differs]
  | trans first _ ih ih' =>
    rw [ih distinct, ih' ((first.map Prod.fst).nodup_iff.1 distinct)]

end

namespace ProcessInfo

/-! ## Announcements by the names of fields -/

/-- The names of the fields of all layouts. -/
def fieldNames : List String :=
  ["TimeLow", "TimeHigh", "time_low", "time_high", "TimeStamp", "ProcessIdentifier",
    "ParentProcessIdentifier", "pid", "ppid", "process_identifier", "parent_process_identifier",
    "ModulePath", "module_path"]

/-- Whether values are some fields of announcements, in any order and among others. -/
def Presents (args fields : NamedValues) : Prop :=
  (args.filter fun arg => arg.1 ∈ fieldNames).Perm fields

theorem lookup_of_presents {args fields : NamedValues} (presents : Presents args fields)
    (distinct : (fields.map Prod.fst).Nodup) (name : String) (mem : name ∈ fieldNames) :
    List.lookup name args = List.lookup name fields := by
  have seen := lookup_filter (fun other => decide (other ∈ fieldNames)) (decide_eq_true mem) args
  rw [← seen]
  exact (lookup_eq_of_perm presents.symm distinct name).symm

section

variable {args fields : NamedValues}
  (same : ∀ name ∈ fieldNames, List.lookup name args = List.lookup name fields)

include same

theorem hasField_congr (name : String) (mem : name ∈ fieldNames) :
    hasField args name = hasField fields name := by
  rw [hasField, same name mem, hasField]

theorem intField_congr (name : String) (mem : name ∈ fieldNames) :
    intField args name = intField fields name := by
  rw [intField, same name mem, intField]

theorem textField_congr (name : String) (mem : name ∈ fieldNames) :
    textField args name = textField fields name := by
  rw [textField, same name mem, textField]

theorem layout?_congr : layout? args = layout? fields := by
  have has := hasField_congr same
  simp (disch := decide) only [layout?, has]

theorem ofLayout_congr (layout : ProcessLayout) :
    ofLayout args layout = ofLayout fields layout := by
  have has := hasField_congr same
  have int := intField_congr same
  have text := textField_congr same
  cases layout with
  | filetimePascal => simp (disch := decide) only [ofLayout, int, text]
  | filetimeSnake =>
    -- Which fields hold the processes is decided first, since each is a field of its own.
    simp (disch := decide) only [ofLayout, has]
    cases hasField fields "pid" with
    | true => simp (disch := decide) only [int, text, if_true]
    | false => simp (disch := decide) only [int, text, Bool.false_eq_true, if_false]
  | epochMillis => simp (disch := decide) only [ofLayout, int, text]

end

/-- Announcements are read by the fields that they present. -/
theorem normalize_of_presents {args fields : NamedValues} {info : ProcessInfo}
    (presents : Presents args fields) (distinct : (fields.map Prod.fst).Nodup)
    (read : normalize fields = .ok info) : normalize args = .ok info := by
  have same := lookup_of_presents presents distinct
  unfold normalize at read ⊢
  rw [layout?_congr same]
  cases here : layout? fields with
  | none =>
    rw [here] at read
    cases read
  | some layout =>
    rw [here] at read
    exact (ofLayout_congr same layout).trans read

/-! ## Names of processes -/

/-- The separators of paths. -/
def IsSeparator (c : Char) : Prop := c = '\\' ∨ c = '/'

/-- Whether a name is what follows the last separator of a path, or all of it if there is none. -/
structure IsLastPart (path name : String) : Prop where
  plain : ∀ c ∈ name.toList, ¬IsSeparator c
  last : path = name ∨ ∃ front sep, IsSeparator sep ∧
    path.toList = front ++ sep :: name.toList

theorem isLastPart_fileName (path : String) : IsLastPart path (fileName path) := by
  let plain := fun c : Char => c != '\\' && c != '/'
  have plain_iff : ∀ c, plain c = true ↔ ¬IsSeparator c := by
    intro c
    simp [plain, IsSeparator]
  have name : (fileName path).toList = (path.toList.reverse.takeWhile plain).reverse := by
    rw [fileName, String.toList_ofList]
  have split : path.toList
      = (path.toList.reverse.dropWhile plain).reverse ++ (fileName path).toList := by
    rw [name, ← List.reverse_append, List.takeWhile_append_dropWhile, List.reverse_reverse]
  refine ⟨fun c mem => ?_, ?_⟩
  · rw [name, List.mem_reverse] at mem
    exact (plain_iff c).1 (List.all_eq_true.1 List.all_takeWhile c mem)
  · cases rest : path.toList.reverse.dropWhile plain with
    | nil =>
      rw [rest, List.reverse_nil, List.nil_append] at split
      exact .inl (String.toList_inj.1 split)
    | cons sep front =>
      have first : ¬plain sep = true := by
        have := List.head?_dropWhile_not plain path.toList.reverse
        rw [rest] at this
        simpa using this
      rw [rest, List.reverse_cons, List.append_assoc, List.singleton_append] at split
      exact .inr ⟨front.reverse, sep, not_not.1 fun not => first ((plain_iff sep).2 not), split⟩

/-! ## Announcements of one process -/

/-- The fields with which a process is announced that started at a count of 100 ns since 1601. The
halves of the count may have any sign, and milliseconds stand for it if they are exact. -/
inductive Announces (t : UInt64) (pid ppid : Int64) (path : String) : NamedValues → Prop
  | filetimePascal {low high : Int64} : HalvesOf t low high →
    Announces t pid ppid path [("TimeLow", .int low), ("TimeHigh", .int high),
      ("ProcessIdentifier", .int pid), ("ParentProcessIdentifier", .int ppid),
      ("ModulePath", .text path)]
  | filetimeSnake {low high : Int64} : HalvesOf t low high →
    Announces t pid ppid path [("time_low", .int low), ("time_high", .int high),
      ("pid", .int pid), ("ppid", .int ppid), ("module_path", .text path)]
  | filetimeSnakeLong {low high : Int64} : HalvesOf t low high →
    Announces t pid ppid path [("time_low", .int low), ("time_high", .int high),
      ("process_identifier", .int pid), ("parent_process_identifier", .int ppid),
      ("module_path", .text path)]
  | epochMillis {millis : Int64} : millis.toInt * 10000 = t.toNat - filetimeOffset →
    Announces t pid ppid path [("TimeStamp", .int millis), ("ProcessIdentifier", .int pid),
      ("ParentProcessIdentifier", .int ppid), ("ModulePath", .text path)]

variable {t : UInt64} {pid ppid : Int64} {path : String} {fields : NamedValues}

/-- No layout has a field twice. -/
theorem Announces.distinct (announces : Announces t pid ppid path fields) :
    (fields.map Prod.fst).Nodup := by
  cases announces <;> simp only [List.map_cons, List.map_nil] <;> decide

/-- A count of 64 bits has halves. -/
theorem exists_halvesOf (t : UInt64) : ∃ low high, HalvesOf t low high := by
  have bound := t.toNat_lt
  refine ⟨.ofInt (t.toNat % 0x100000000), .ofInt (t.toNat / 0x100000000), ?_, ?_⟩
  · rw [Int64.toInt_ofInt_of_le (by omega) (by omega)]
    omega
  · rw [Int64.toInt_ofInt_of_le (by omega) (by omega)]
    omega

/-- What comes next counts once a reading has succeeded. -/
theorem ok_bind {ε α β : Type} {x : Except ε α} {next : α → Except ε β} {a : α} {b : β}
    (ok : x = .ok a) (rest : next a = .ok b) : (x >>= next) = .ok b := by
  rw [ok]
  exact rest

/-- The layout in snake case is read alike under either pair of names for the processes. -/
theorem ofLayout_snake_eq_ok {low high : Int64} {moment : Moment}
    (pidRead : intField fields (if hasField fields "pid" then "pid" else "process_identifier")
      = .ok pid)
    (ppidRead : intField fields
      (if hasField fields "pid" then "ppid" else "parent_process_identifier") = .ok ppid)
    (lowRead : intField fields "time_low" = .ok low)
    (highRead : intField fields "time_high" = .ok high)
    (time : filetime low high = .ok moment)
    (pathRead : textField fields "module_path" = .ok path) :
    ofLayout fields .filetimeSnake = .ok ⟨pid, ppid, moment, fileName path⟩ := by
  refine ok_bind pidRead ?_
  refine ok_bind ppidRead ?_
  refine ok_bind lowRead ?_
  refine ok_bind highRead ?_
  refine ok_bind time ?_
  exact ok_bind pathRead rfl

/-- The fields of every layout are read as the process that they announce. -/
theorem Announces.normalize_eq_ok (announces : Announces t pid ppid path fields) :
    ∃ moment : Moment, moment.nanoseconds = (t.toNat - filetimeOffset) * 100 ∧
      normalize fields = .ok ⟨pid, ppid, moment, fileName path⟩ := by
  cases announces with
  | @filetimePascal low high halves =>
    rcases filetime_eq_ok halves with ⟨moment, read, count⟩
    refine ⟨moment, count, ?_⟩
    change ofLayout _ .filetimePascal = _
    refine ok_bind (a := low) rfl ?_
    refine ok_bind (a := high) rfl ?_
    refine ok_bind read ?_
    refine ok_bind (a := pid) rfl ?_
    refine ok_bind (a := ppid) rfl ?_
    exact ok_bind (a := path) rfl rfl
  | filetimeSnake halves =>
    rcases filetime_eq_ok halves with ⟨moment, read, count⟩
    exact ⟨moment, count, ofLayout_snake_eq_ok rfl rfl rfl rfl read rfl⟩
  | filetimeSnakeLong halves =>
    rcases filetime_eq_ok halves with ⟨moment, read, count⟩
    exact ⟨moment, count, ofLayout_snake_eq_ok rfl rfl rfl rfl read rfl⟩
  | @epochMillis millis exact' =>
    rcases epochMoment_eq_ok exact' with ⟨moment, read, count⟩
    refine ⟨moment, count, ?_⟩
    change ofLayout _ .epochMillis = _
    refine ok_bind (a := millis) rfl ?_
    refine ok_bind read ?_
    refine ok_bind (a := pid) rfl ?_
    refine ok_bind (a := ppid) rfl ?_
    exact ok_bind (a := path) rfl rfl

/-- Every process has one form that all announcements of it are read as, whatever their layout, the
signs of their halves, the order of their fields and what else stands among them. Its start is
exact, and its name is the last part of its path. -/
theorem layouts_agree (t : UInt64) (pid ppid : Int64) (path : String) :
    ∃ info : ProcessInfo, info.pid = pid ∧ info.ppid = ppid ∧
      info.firstSeen.nanoseconds = (t.toNat - filetimeOffset) * 100 ∧
      IsLastPart path info.name ∧
      ∀ fields, Announces t pid ppid path fields → ∀ args, Presents args fields →
        normalize args = .ok info := by
  rcases exists_halvesOf t with ⟨low, high, halves⟩
  have first : Announces t pid ppid path _ := .filetimePascal halves
  rcases first.normalize_eq_ok with ⟨moment, count, -⟩
  refine ⟨⟨pid, ppid, moment, fileName path⟩, rfl, rfl, count, isLastPart_fileName path, ?_⟩
  intro fields announces args presents
  rcases announces.normalize_eq_ok with ⟨other, count', read⟩
  obtain rfl : moment = other := Moment.eq_of_nanoseconds (count.trans count'.symm)
  exact normalize_of_presents presents announces.distinct read

/-- A start at the beginning of 1601, in halves with and without a sign and in milliseconds, among
what a call holds besides. -/
theorem layouts_agree_firstTick :
    ∃ info : ProcessInfo, info.firstSeen.nanoseconds = -11644473600000000000 ∧
      IsLastPart "C:\\Temp/a.exe" info.name ∧
      normalize [("is_success", .int 1), ("ModulePath", .text "C:\\Temp/a.exe"),
        ("TimeLow", .int 0x100000000), ("TimeHigh", .int (-0x100000000)),
        ("ProcessIdentifier", .int 8), ("ParentProcessIdentifier", .int 4)] = .ok info ∧
      normalize [("time_low", .int 0), ("retval", .null), ("time_high", .int 0), ("pid", .int 8),
        ("ppid", .int 4), ("module_path", .text "C:\\Temp/a.exe")] = .ok info ∧
      normalize [("time_low", .int 0), ("time_high", .int 0), ("process_identifier", .int 8),
        ("parent_process_identifier", .int 4), ("module_path", .text "C:\\Temp/a.exe"),
        ("ProcessId", .int 3)] = .ok info ∧
      normalize [("TimeStamp", .int (-11644473600000)), ("ProcessIdentifier", .int 8),
        ("ParentProcessIdentifier", .int 4), ("ModulePath", .text "C:\\Temp/a.exe"),
        ("CommandLine", .text "a")] = .ok info := by
  rcases layouts_agree 0 8 4 "C:\\Temp/a.exe" with ⟨info, -, -, start, name, agree⟩
  have signed : HalvesOf 0 0x100000000 (-0x100000000) := ⟨by decide, by decide⟩
  have plain : HalvesOf 0 0 0 := ⟨by decide, by decide⟩
  have exact' : (-11644473600000 : Int64).toInt * 10000 = (0 : UInt64).toNat - filetimeOffset := by
    decide
  refine ⟨info, start, name, agree _ (.filetimePascal signed) _ ?_,
    agree _ (.filetimeSnake plain) _ (.refl _), agree _ (.filetimeSnakeLong plain) _ (.refl _),
    agree _ (.epochMillis exact') _ (.refl _)⟩
  exact @List.perm_append_comm _ [_] [_, _, _, _]

end ProcessInfo

end CallTrace
