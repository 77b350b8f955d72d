import CallTrace.Process
import Mathlib.Tactic.Ring

/-!
Counts of time as moments. A moment is a number of nanoseconds after the start of 1970
(`Moment.nanoseconds`), before which it is negative, and no two moments have the same. A count of
units of which a whole number makes a second becomes the moment with as many nanoseconds, if the
calendar holds its second (`Moment.ofUnix?_of_units`).

Every count of 64 bits since 1601 is held (`filetime_eq_ok`), whichever integers give its halves.
The conversion works in words of 32, 64 and 128 bits, and `filetime_exact` says that each of its
steps has the value that it has for integers without bounds.
-/

namespace CallTrace

namespace Moment

/-- The nanoseconds after the start of 1970. -/
def nanoseconds (t : Moment) : Int := t.seconds * 1000000000 + t.nanos

/-- A moment is told by its nanoseconds. -/
theorem eq_of_nanoseconds {s t : Moment} (same : s.nanoseconds = t.nanoseconds) : s = t := by
  rcases s with ⟨seconds, nanos, _, _, below⟩
  rcases t with ⟨seconds', nanos', _, _, below'⟩
  simp only [nanoseconds] at same
  obtain rfl : seconds = seconds' := by omega
  obtain rfl : nanos = nanos' := by omega
  rfl

/-- A moment comes before another by its second, or by its nanoseconds within the same second. -/
instance : LT Moment where
  lt s t := s.seconds < t.seconds ∨ s.seconds = t.seconds ∧ s.nanos < t.nanos

theorem lt_iff_nanoseconds {s t : Moment} : s < t ↔ s.nanoseconds < t.nanoseconds := by
  have first := s.nanos_lt
  have second := t.nanos_lt
  change s.seconds < t.seconds ∨ s.seconds = t.seconds ∧ s.nanos < t.nanos ↔ _
  unfold nanoseconds
  omega

theorem ofUnix?_eq_some {seconds : Int} {nanos : Nat} (first : -8334601228800 ≤ seconds)
    (last : seconds ≤ 8210266876799) (below : nanos < 1000000000) :
    ofUnix? seconds nanos = some ⟨seconds, nanos, first, last, below⟩ :=
  dif_pos ⟨first, last, below⟩

theorem fields_of_ofUnix? {seconds : Int} {nanos : Nat} {t : Moment}
    (here : ofUnix? seconds nanos = some t) : t.seconds = seconds ∧ t.nanos = nanos := by
  unfold ofUnix? at here
  split at here
  · cases here
    exact ⟨rfl, rfl⟩
  · cases here

/-- So many units, of which `perSecond` make a second, are a moment if the calendar holds its
second. The units before 1970 are split like those after it, with a part of a second that is not
negative. -/
theorem ofUnix?_of_units {perSecond unit : Nat} (whole : perSecond * unit = 1000000000) (n : Int)
    (first : -8334601228800 ≤ n / perSecond) (last : n / perSecond ≤ 8210266876799) :
    ∃ t, ofUnix? (n / perSecond) ((n % perSecond).toNat * unit) = some t ∧
      t.nanoseconds = n * unit := by
  have seconds : 0 < perSecond := by
    rcases Nat.eq_zero_or_pos perSecond with rfl | positive
    · rw [Nat.zero_mul] at whole
      cases whole
    · exact positive
  have units : 0 < unit := by
    rcases Nat.eq_zero_or_pos unit with rfl | positive
    · cases whole
    · exact positive
  have part : ((n % perSecond).toNat : Int) = n % perSecond :=
    Int.toNat_of_nonneg (Int.emod_nonneg n (by omega))
  have less : (n % perSecond).toNat < perSecond := by
    have := Int.emod_lt_of_pos n (Int.natCast_pos.2 seconds)
    omega
  have below : (n % perSecond).toNat * unit < 1000000000 :=
    whole ▸ Nat.mul_lt_mul_of_pos_right less units
  refine ⟨_, ofUnix?_eq_some first last below, ?_⟩
  have split : n / perSecond * perSecond + n % perSecond = n := Int.ediv_mul_add_emod n perSecond
  have second : (1000000000 : Int) = perSecond * unit := by exact_mod_cast whole.symm
  calc n / perSecond * 1000000000 + ((n % perSecond).toNat * unit : Nat)
      = (n / perSecond * perSecond + n % perSecond) * unit := by
        rw [Int.natCast_mul, part, second]
        ring
    _ = n * unit := by rw [split]

end Moment

namespace ProcessInfo

/-! ## Halves of a count -/

/-- Two integers that give the halves of a count, of which their lowest 32 bits count, with or
without a sign. -/
structure HalvesOf (t : UInt64) (low high : Int64) : Prop where
  low : low.toInt % 0x100000000 = t.toNat % 0x100000000
  high : high.toInt % 0x100000000 = t.toNat / 0x100000000

/-- The lowest 32 bits of an integer. -/
theorem toNat_toUInt32_toInt32 (n : Int64) :
    (n.toInt32.toUInt32.toNat : Int) = n.toInt % 0x100000000 := by
  have value := n.toBitVec.toInt_eq_toNat_bmod
  have bound := n.toBitVec.isLt
  rw [Int64.toInt_toBitVec, Int.bmod_def] at value
  rw [← UInt32.toNat_toBitVec, Int32.toBitVec_toUInt32, Int64.toBitVec_toInt32,
    BitVec.signExtend_eq_setWidth_of_le _ (by decide), BitVec.toNat_setWidth, value]
  omega

/-- The count of 100 ns since 1601 that two integers give, of which their lowest 32 bits count. -/
def countOfHalves (low high : Int64) : Int :=
  high.toInt % 0x100000000 * 0x100000000 + low.toInt % 0x100000000

theorem countOfHalves_bounds (low high : Int64) :
    0 ≤ countOfHalves low high ∧ countOfHalves low high < 2 ^ 64 := by
  unfold countOfHalves
  omega

theorem HalvesOf.count_eq {t : UInt64} {low high : Int64} (halves : HalvesOf t low high) :
    countOfHalves low high = t.toNat := by
  have bound := t.toNat_lt
  rw [countOfHalves, halves.low, halves.high]
  omega

/-! ## The steps of the conversion -/

section

variable (low high : Int64)

/-- The two halves do not meet in the word that joins them. -/
theorem toNat_filetimeTicks : ((filetimeTicks low high).toNat : Int) = countOfHalves low high := by
  have first := toNat_toUInt32_toInt32 low
  have second := toNat_toUInt32_toInt32 high
  have lowBound := low.toInt32.toUInt32.toNat_lt
  have highBound := high.toInt32.toUInt32.toNat_lt
  have shifted : high.toInt32.toUInt32.toNat <<< 32 % 2 ^ 64
      = high.toInt32.toUInt32.toNat <<< 32 := by
    rw [Nat.shiftLeft_eq]
    exact Nat.mod_eq_of_lt (by omega)
  have joined : (filetimeTicks low high).toNat
      = high.toInt32.toUInt32.toNat <<< 32 + low.toInt32.toUInt32.toNat := by
    rw [filetimeTicks, UInt64.toNat_or, UInt64.toNat_shiftLeft, UInt32.toNat_toUInt64,
      UInt32.toNat_toUInt64, Nat.shiftLeft_add_eq_or_of_lt lowBound]
    exact congrArg (· ||| low.toInt32.toUInt32.toNat) shifted
  rw [joined, Nat.shiftLeft_eq, countOfHalves]
  omega

/-- 128 bits keep what is in their range. -/
theorem wide_of_bounds {n : Int} (first : -2 ^ 127 ≤ n) (last : n < 2 ^ 127) : wide n = n := by
  rw [wide]
  exact Int.bmod_eq_of_le (by omega) (by omega)

theorem unixTicks_eq : unixTicks low high = countOfHalves low high - filetimeOffset := by
  have bounds := countOfHalves_bounds low high
  rw [unixTicks, toNat_filetimeTicks, filetimeOffset]
  exact wide_of_bounds (by omega) (by omega)

theorem toInt_filetimeSeconds :
    (filetimeSeconds low high).toInt = (countOfHalves low high - filetimeOffset) / 10000000 := by
  have bounds := countOfHalves_bounds low high
  rw [filetimeSeconds, unixTicks_eq, filetimeOffset]
  exact Int64.toInt_ofInt_of_le (by omega) (by omega)

theorem wide_part (n : Int) : wide (n % 10000000 * 100) = n % 10000000 * 100 :=
  wide_of_bounds (by omega) (by omega)

theorem toNat_filetimeNanos :
    ((filetimeNanos low high).toNat : Int)
      = (countOfHalves low high - filetimeOffset) % 10000000 * 100 := by
  rw [filetimeNanos, unixTicks_eq, wide_part, UInt32.ofInt, UInt32.toNat_ofNat']
  omega

end

/-! ## Moments -/

/-- Every pair of halves is a moment. -/
theorem filetime_of_halves (low high : Int64) :
    ∃ moment, filetime low high = .ok moment ∧
      moment.seconds = (filetimeSeconds low high).toInt ∧
      moment.nanos = (filetimeNanos low high).toNat ∧
      moment.nanoseconds = (countOfHalves low high - filetimeOffset) * 100 := by
  have bounds := countOfHalves_bounds low high
  have nanos := toNat_filetimeNanos low high
  have whole : 10000000 * 100 = 1000000000 := rfl
  rcases Moment.ofUnix?_of_units whole (countOfHalves low high - filetimeOffset)
      (by rw [filetimeOffset]; omega) (by rw [filetimeOffset]; omega) with ⟨moment, here, count⟩
  have part : ((countOfHalves low high - filetimeOffset) % (10000000 : Nat)).toNat * 100
      = (filetimeNanos low high).toNat := by
    omega
  have seconds : (countOfHalves low high - filetimeOffset) / (10000000 : Nat)
      = (filetimeSeconds low high).toInt := (toInt_filetimeSeconds low high).symm
  rw [part, seconds] at here
  rcases Moment.fields_of_ofUnix? here with ⟨sameSeconds, sameNanos⟩
  exact ⟨moment, congrArg (momentField "TimeLow") here, sameSeconds, sameNanos, count⟩

/-- Every count of 100 ns since 1601 is a moment. -/
theorem filetime_eq_ok {t : UInt64} {low high : Int64} (halves : HalvesOf t low high) :
    ∃ moment, filetime low high = .ok moment ∧
      moment.nanoseconds = (t.toNat - filetimeOffset) * 100 := by
  rcases filetime_of_halves low high with ⟨moment, read, -, -, count⟩
  rw [halves.count_eq] at count
  exact ⟨moment, read, count⟩

/-- Milliseconds since 1970 that are a whole count of 100 ns since 1601 are a moment. -/
theorem epochMoment_eq_ok {t : UInt64} {millis : Int64}
    (same : millis.toInt * 10000 = t.toNat - filetimeOffset) :
    ∃ moment, epochMoment millis = .ok moment ∧
      moment.nanoseconds = (t.toNat - filetimeOffset) * 100 := by
  have bound := t.toNat_lt
  rw [filetimeOffset] at same
  have whole : 1000 * 1000000 = 1000000000 := rfl
  rcases Moment.ofUnix?_of_units whole millis.toInt (by omega) (by omega) with
    ⟨moment, here, count⟩
  refine ⟨moment, congrArg (momentField "TimeStamp") here, ?_⟩
  rw [count, filetimeOffset]
  omega

/-- Whatever the two halves, no step of their conversion loses anything, not even before 1970, where
the count is negative: the word joins the halves, 128 bits hold the difference and the product, and
64 and 32 bits hold the seconds and the nanoseconds. The calendar holds the moment, so that there
always is one, and later counts are later moments. -/
theorem filetime_exact (low high : Int64) :
    (filetimeTicks low high).toNat = countOfHalves low high ∧
    let unix := countOfHalves low high - 116444736000000000
    let seconds := (filetimeSeconds low high).toInt
    let nanos := (filetimeNanos low high).toNat
    unixTicks low high = unix ∧
    seconds = unix / 10000000 ∧
    wide (unixTicks low high % 10000000 * 100) = unix % 10000000 * 100 ∧
    nanos = unix % 10000000 * 100 ∧ 100 ∣ nanos ∧ nanos < 1000000000 ∧
    seconds * 1000000000 + nanos = unix * 100 ∧
    ∃ moment, filetime low high = .ok moment ∧ moment.seconds = seconds ∧ moment.nanos = nanos ∧
      ∀ low' high', ∃ other, filetime low' high' = .ok other ∧
        (moment < other ↔ countOfHalves low high < countOfHalves low' high') := by
  refine ⟨toNat_filetimeTicks low high, ?_⟩
  intro unix seconds nanos
  have exactTicks : unixTicks low high = unix := unixTicks_eq low high
  have exactSeconds : seconds = unix / 10000000 := toInt_filetimeSeconds low high
  have exactNanos : (nanos : Int) = unix % 10000000 * 100 := toNat_filetimeNanos low high
  refine ⟨exactTicks, exactSeconds, ?_, exactNanos, by omega, by omega, by omega, ?_⟩
  · rw [exactTicks]
    exact wide_part unix
  · rcases filetime_of_halves low high with ⟨moment, read, sameSeconds, sameNanos, total⟩
    refine ⟨moment, read, sameSeconds, sameNanos, fun low' high' => ?_⟩
    rcases filetime_of_halves low' high' with ⟨other, read', -, -, total'⟩
    refine ⟨other, read', ?_⟩
    rw [Moment.lt_iff_nanoseconds, total, total']
    omega

end ProcessInfo

end CallTrace
