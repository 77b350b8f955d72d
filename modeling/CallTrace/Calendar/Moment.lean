import CallTrace.Calendar.Date

/-!
Moments in universal time: whole seconds after the start of 1970 and nanoseconds below a second.
Only moments whose date the calendar can hold exist, which `ofUnix?` decides. A wall clock shows
such a moment in milliseconds (`EpochMillis`).
-/

namespace CallTrace

/-- A moment in universal time, within the calendar's range. -/
structure Moment where
  /-- Whole seconds after 1970-01-01 00:00:00, rounded down. -/
  seconds : Int
  /-- Nanoseconds after the whole second. -/
  nanos : Nat
  first_le : -8334601228800 ≤ seconds
  le_last : seconds ≤ 8210266876799
  nanos_lt : nanos < 1000000000
  deriving DecidableEq, Repr

namespace Moment

/-- The moment of some seconds and nanoseconds, if the calendar can hold it. -/
def ofUnix? (seconds : Int) (nanos : Nat) : Option Moment :=
  if h : -8334601228800 ≤ seconds ∧ seconds ≤ 8210266876799 ∧ nanos < 1000000000 then
    some ⟨seconds, nanos, h.1, h.2.1, h.2.2⟩
  else none

/-- The moment of some milliseconds after the start of 1970, if the calendar can hold it. -/
def ofMillis? (millis : Int) : Option Moment :=
  ofUnix? (millis / 1000) ((millis % 1000).toNat * 1000000)

/-- The day of a moment. -/
def date (t : Moment) : Date := Date.ofDays (t.seconds / 86400)

/-- The second of the day of a moment. -/
def secondOfDay (t : Moment) : Nat := (t.seconds % 86400).toNat

/-- A fraction of a second with 0, 3, 6 or 9 digits: the fewest of these that lose nothing. -/
def fractionText (nanos : Nat) : String :=
  if nanos = 0 then ""
  else if nanos % 1000000 = 0 then "." ++ Numeral.padded 3 (nanos / 1000000)
  else if nanos % 1000 = 0 then "." ++ Numeral.padded 6 (nanos / 1000)
  else "." ++ Numeral.padded 9 nanos

/-- The text of RFC 3339 without its offset. -/
def localText (t : Moment) : String :=
  let s := t.secondOfDay
  t.date.text ++ "T" ++ Numeral.padded 2 (s / 3600) ++ ":" ++ Numeral.padded 2 (s / 60 % 60) ++ ":"
    ++ Numeral.padded 2 (s % 60) ++ fractionText t.nanos

/-- The text of RFC 3339 with the offset `Z`. -/
def zuluText (t : Moment) : String := t.localText ++ "Z"

/-- The text of RFC 3339 with the offset `+00:00`. -/
def offsetText (t : Moment) : String := t.localText ++ "+00:00"

end Moment

/-- The milliseconds after the start of 1970 of a moment that the calendar can hold. -/
structure EpochMillis where
  count : Int64
  held : (Moment.ofMillis? count.toInt).isSome = true
  deriving DecidableEq, Repr

namespace EpochMillis

instance : OfNat EpochMillis 0 := ⟨⟨0, by decide⟩⟩

/-- The moment that a clock shows. -/
def moment (t : EpochMillis) : Moment := (Moment.ofMillis? t.count.toInt).get t.held

theorem ofMillis?_count (t : EpochMillis) : Moment.ofMillis? t.count.toInt = some t.moment :=
  (Option.some_get t.held).symm

end EpochMillis

end CallTrace
