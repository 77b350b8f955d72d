import CallTrace.Proofs.Frame.Answer
import CallTrace.Proofs.Frame.Handshake
import CallTrace.Proofs.Text.Trimmed

/-!
What a reader of the opening line answers, and how many bytes it takes. `Opens` is the rule as a
relation between the bytes of a stream, the answer and the number of bytes taken: a line of at most
`maxLength` bytes announces what its text without blanks at its ends says, a longer one is left at
its first byte too many, and a stream may end within its line.

`read_iff_opens` says that `Handshake.read` follows the rule, whatever the schedule of the
transport, and that the first frame is read from the byte behind those that were taken.
-/

namespace CallTrace.Handshake

variable {s : Source} {bytes line rest : Bytes} {answer : Except FrameError Protocol} {taken : Nat}

/-! ## The rule -/

/-- Some bytes begin with a line and its line feed, and the line is not too long. -/
structure BeginsWith (bytes line rest : Bytes) : Prop where
  split : bytes = line ++ lineFeed :: rest
  free : lineFeed ∉ line
  short : line.length ≤ maxLength

/-- What a reader of the opening line returns for some bytes behind which the stream ends, and how
many of them it takes. -/
inductive Opens (bytes : Bytes) : Except FrameError Protocol → Nat → Prop
  | bson {line rest : Bytes} : BeginsWith bytes line rest →
    IsTrimmed (Utf8.decodeLossy line) ['B', 'S', 'O', 'N'] →
    Opens bytes (.ok .bson) (line.length + 1)
  | other {line rest : Bytes} {name : String} : BeginsWith bytes line rest →
    IsTrimmed (Utf8.decodeLossy line) name.toList → name ≠ "BSON" →
    Opens bytes (.ok (.other name)) (line.length + 1)
  | tooLarge : maxLength + 1 ≤ bytes.length → lineFeed ∉ bytes.take (maxLength + 1) →
    Opens bytes (.error (.tooLarge (maxLength + 1) maxLength)) (maxLength + 1)
  | truncated : bytes.length ≤ maxLength → lineFeed ∉ bytes →
    Opens bytes (.error (.truncated (bytes.length + 1) bytes.length)) bytes.length

theorem protocolOf_bson (text : IsTrimmed (Utf8.decodeLossy line) ['B', 'S', 'O', 'N']) :
    protocolOf line = .bson := by
  rw [protocolOf, text.trim_eq]
  rfl

theorem protocolOf_other {name : String} (text : IsTrimmed (Utf8.decodeLossy line) name.toList)
    (other : name ≠ "BSON") : protocolOf line = .other name := by
  have differs : name.toList ≠ ['B', 'S', 'O', 'N'] := fun same =>
    other (String.toList_inj.1 same)
  rw [protocolOf, text.trim_eq, if_neg differs, String.ofList_toList]

/-- The rule has an answer for all bytes. -/
theorem exists_opens (bytes : Bytes) : ∃ answer taken, Opens bytes answer taken := by
  rcases line_cases bytes maxLength with ⟨line, rest, split, free, short⟩ |
    ⟨line, rest, rfl, free, long⟩ | ⟨free, short⟩
  · have text := isTrimmed_trim (Utf8.decodeLossy line)
    by_cases named : trim (Utf8.decodeLossy line) = ['B', 'S', 'O', 'N']
    · rw [named] at text
      exact ⟨_, _, .bson ⟨split, free, short⟩ text⟩
    · rw [← String.toList_ofList (l := trim _)] at text
      refine ⟨_, _, .other ⟨split, free, short⟩ text fun same => named ?_⟩
      rw [← String.toList_ofList (l := trim _), same]
      rfl
  · refine ⟨_, _, .tooLarge ?_ ?_⟩
    · rw [List.length_append, long]
      exact Nat.le_add_right _ _
    · rwa [← long, List.take_left]
  · exact ⟨_, _, .truncated short free⟩

/-! ## Readers -/

/-- Whether a reader of the opening line gives this answer and takes so many of some bytes, which
leaves the others. -/
def Gives (s : Source) (bytes : Bytes) (answer : Except FrameError Protocol) (taken : Nat) : Prop :=
  (read s).1 = answer ∧ (read s).2.served = s.served + taken ∧
    (read s).2.ServesAll (bytes.drop taken)

/-- What is left tells how much was taken. -/
theorem gives_of_read {t : Source} (serves : s.ServesAll bytes) (outcome : read s = (answer, t))
    (left : t.ServesAll (bytes.drop taken)) (within : taken ≤ bytes.length) :
    Gives s bytes answer taken := by
  have kept := total_read s
  rw [outcome, Source.total, Source.total, left.pending, serves.pending, List.length_drop] at kept
  unfold Gives
  rw [outcome]
  dsimp only at kept ⊢
  exact ⟨rfl, by omega, left⟩

theorem BeginsWith.gives (begins : BeginsWith bytes line rest) (serves : s.ServesAll bytes) :
    Gives s bytes (.ok (protocolOf line)) (line.length + 1) := by
  rcases begins with ⟨rfl, free, short⟩
  rcases read_of_line (.ending serves) free short with ⟨t, outcome, left⟩
  have behind : (line ++ lineFeed :: rest).drop (line.length + 1) = rest := by
    rw [List.append_cons]
    exact List.drop_left' (List.length_append ..)
  refine gives_of_read serves outcome ?_ ?_
  · rw [behind]
    exact left.servesAll
  · rw [List.length_append, List.length_cons]
    omega

theorem gives_of_opens (serves : s.ServesAll bytes) (opens : Opens bytes answer taken) :
    Gives s bytes answer taken := by
  cases opens with
  | bson begins text =>
    rw [← protocolOf_bson text]
    exact begins.gives serves
  | other begins text differs =>
    rw [← protocolOf_other text differs]
    exact begins.gives serves
  | tooLarge long free =>
    have length : (bytes.take (maxLength + 1)).length = maxLength + 1 :=
      List.length_take_of_le long
    have split : s.ServesAll (bytes.take (maxLength + 1) ++ bytes.drop (maxLength + 1)) := by
      rwa [List.take_append_drop]
    rcases read_of_long (.ending split) free length with ⟨t, outcome, left⟩
    rw [length] at outcome
    exact gives_of_read serves outcome left.servesAll long
  | truncated short free =>
    rcases read_of_short (.ending serves) free short with ⟨t, outcome, left⟩
    refine gives_of_read serves outcome ?_ (Nat.le_refl _)
    rw [List.drop_length]
    exact left.servesAll

/-- Whatever the schedule of a transport that ends behind its bytes, a reader of the opening line
answers by the rule, which has an answer for all bytes, takes just the bytes that the rule says,
and leaves the first of the others to the reader of the first frame. -/
theorem read_iff_opens (serves : s.ServesAll bytes) :
    (∃ answer taken, Opens bytes answer taken) ∧
    ∀ answer taken, (Opens bytes answer taken ↔ Gives s bytes answer taken) ∧
      (Opens bytes answer taken → ∀ next size,
        Frame.Answers (bytes.drop taken) next size ↔ Frame.Gives (read s).2 next size) := by
  refine ⟨exists_opens bytes, fun answer taken => ⟨⟨gives_of_opens serves, ?_⟩, ?_⟩⟩
  · intro gives
    rcases exists_opens bytes with ⟨answer', taken', opens⟩
    rcases gives_of_opens serves opens with ⟨same, count, -⟩
    rcases gives with ⟨same', count', -⟩
    obtain rfl : answer = answer' := same'.symm.trans same
    obtain rfl : taken = taken' := by omega
    exact opens
  · intro opens next size
    rcases gives_of_opens serves opens with ⟨-, -, left⟩
    exact Frame.answers_iff_gives fun _ _ => Frame.gives_of_servesAll left

/-- Three transports about as long as a line may be, interrupted and cut into pieces: sixteen bytes
and a line feed in front of a frame, seventeen bytes without a line feed, and sixteen. -/
theorem read_iff_opens_atLimit :
    Gives (.ofBytes (List.replicate 12 32 ++ [66, 83, 79, 78, 10, 5, 0, 0, 0, 7]) (some 3)
      [(2, .interrupted)]) (List.replicate 12 32 ++ [66, 83, 79, 78, 10, 5, 0, 0, 0, 7])
      (.ok .bson) 17 ∧
    Frame.Gives (read (.ofBytes (List.replicate 12 32 ++ [66, 83, 79, 78, 10, 5, 0, 0, 0, 7])
      (some 3) [(2, .interrupted)])).2 (.ok (some [7])) 5 ∧
    Gives (.ofBytes (List.replicate 17 32) (some 3) [(2, .interrupted)]) (List.replicate 17 32)
      (.error (.tooLarge 17 16)) 17 ∧
    Gives (.ofBytes (List.replicate 16 32) (some 3) [(2, .interrupted)]) (List.replicate 16 32)
      (.error (.truncated 17 16)) 16 := by
  have clean (bytes : Bytes) :
      (Source.ofBytes bytes (some 3) [(2, .interrupted)]).ServesAll bytes :=
    Source.servesAll_ofBytes bytes (by decide) (by decide)
  have line : BeginsWith (List.replicate 12 32 ++ [66, 83, 79, 78, 10, 5, 0, 0, 0, 7])
      (List.replicate 12 32 ++ [66, 83, 79, 78]) [5, 0, 0, 0, 7] :=
    ⟨rfl, by decide, by decide⟩
  have announced : Opens (List.replicate 12 32 ++ [66, 83, 79, 78, 10, 5, 0, 0, 0, 7])
      (.ok .bson) 17 :=
    .bson line (isTrimmed_iff.2 (by decide +kernel))
  have behind : Frame.Answers [5, 0, 0, 0, 7] (.ok (some [7])) 5 :=
    .framed (by decide) (by decide) (by decide)
  refine ⟨?_, ?_, ?_, ?_⟩
  · exact (((read_iff_opens (clean _)).2 _ _).1).1 announced
  · exact (((read_iff_opens (clean _)).2 _ _).2 announced _ _).1 behind
  · exact (((read_iff_opens (clean _)).2 _ _).1).1 (.tooLarge (by decide) (by decide))
  · exact (((read_iff_opens (clean _)).2 _ _).1).1 (.truncated (by decide) (by decide))

end CallTrace.Handshake
