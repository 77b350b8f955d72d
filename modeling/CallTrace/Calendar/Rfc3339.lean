import CallTrace.Calendar.Date

/-!
The moment that a text of RFC 3339 names: a date, any one character, a time of day, and an offset
from universal time. A sixtieth second is one that may have been inserted, at the end of a month in
universal time, and counts as the last nanosecond before it.
-/

namespace CallTrace.Rfc3339

/-- The nanoseconds of a fraction of a second, of whose digits those behind the ninth do not count,
and what follows it. A fraction begins with a point; there need be none. -/
def takeFraction? : List Char → Option (Nat × List Char)
  | '.' :: rest => do
    let ds := rest.takeWhile Char.isDigit
    let n ← Numeral.digits? 10 ((ds ++ List.replicate 8 '0').take 9)
    if ds.isEmpty then none else some (n, rest.dropWhile Char.isDigit)
  | cs => some (0, cs)

/-- The minutes of an offset from universal time, with which a text ends. -/
def offset? : List Char → Option Int
  | ['Z'] | ['z'] => some 0
  | sign :: rest => do
    let (hours, rest) ← Numeral.takeField? 2 0 23 rest
    let ':' :: rest := rest | none
    let (minutes, rest) ← Numeral.takeField? 2 0 59 rest
    let size : Int := hours * 60 + minutes
    if rest ≠ [] then none
    else if sign = '+' then some size
    else if sign = '-' then some (-size)
    else none
  | [] => none

/-- Whether the last second of a day, which is given, ends a month. -/
def endsMonth (seconds : Int) : Bool := (Date.ofDays (seconds / 86400 + 1)).day = 1

/-- The nanoseconds after 1970-01-01 00:00:00 in universal time of the moment that a text names. -/
def nanos? (cs : List Char) : Option Int := do
  let (year, rest) ← Numeral.takeField? 4 0 9999 cs
  let '-' :: rest := rest | none
  let (month, rest) ← Numeral.takeField? 2 1 12 rest
  let '-' :: rest := rest | none
  let (day, rest) ← Numeral.takeField? 2 1 (Date.daysIn year month) rest
  let mark :: rest := rest | none
  let (hour, rest) ← Numeral.takeField? 2 0 23 rest
  let ':' :: rest := rest | none
  let (minute, rest) ← Numeral.takeField? 2 0 59 rest
  let ':' :: rest := rest | none
  let (second, rest) ← Numeral.takeField? 2 0 60 rest
  let (nanos, rest) ← takeFraction? rest
  let offset ← offset? rest
  let minutes := (Date.mk year month day).toDays * 1440 + hour * 60 + minute - offset
  let seconds := minutes * 60 + min second 59
  if 0x80 ≤ mark.toNat then none
  else if second < 60 then some (seconds * 1000000000 + nanos)
  else if seconds % 86400 = 86399 ∧ endsMonth seconds then
    some (seconds * 1000000000 + 999999999)
  else none

end CallTrace.Rfc3339
