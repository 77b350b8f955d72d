import CallTrace.Decimal.Binary64

/-!
The fewest decimal digits that read back as a given binary64 value, and of those the nearest to it.
The reals that round to `m * 2 ^ q` form an interval around it, whose ends belong to it when `m` is
even. Decimal grids are nested, so the points of the finest one that lie in the interval tell how
coarse a grid may be and still have one there. On that grid only the value's two neighbours can be
the nearest point. A value may lie halfway between the two; which of them is taken then is for the
format to say, as a `Tie`.
-/

namespace CallTrace

/-- Which of two equally near points of a grid stands for a magnitude between them. -/
inductive Tie where
  | toEven
  | away
  deriving DecidableEq, Repr

/-- The point taken of `below` and the one after it. -/
def Tie.point : Tie → Nat → Nat
  | .toEven, below => below + below % 2
  | .away, below => below + 1

namespace Shortest

/-- The interval around a value, all in units of `2 ^ (q - 2)`. -/
structure Interval where
  low : Nat
  middle : Nat
  high : Nat
  q : Int
  closed : Bool
  deriving Repr

/-- The reals that round to `m * 2 ^ q`. Below a power of two the next value is half as far. -/
def Interval.around (m : Nat) (q : Int) : Interval :=
  let gap := if m = Binary64.fractions ∧ -1074 < q then 1 else 2
  ⟨4 * m - gap, 4 * m, 4 * m + 2, q - 2, m % 2 = 0⟩

/-- `n` units and `p` points of the grid of step `10 ^ k`, on one scale of integers. -/
def scales (q k : Int) : Nat × Nat :=
  let unit := if 0 ≤ k then 1 else Nat.pow 10 (-k).toNat
  let point := if 0 ≤ k then Nat.pow 10 k.toNat else 1
  (unit <<< q.toNat, point <<< (-q).toNat)

/-- The first and the last point of the grid of step `10 ^ k` that lie in the interval. -/
def Interval.points (i : Interval) (k : Int) : Nat × Nat :=
  let (unit, point) := scales i.q k
  if i.closed then ((i.low * unit + (point - 1)) / point, i.high * unit / point)
  else (i.low * unit / point + 1, (i.high * unit - 1) / point)

/-- How often, at most `count` times, a grid can be made ten times as coarse with points of it
still between two points of the grid. -/
def coarsening : Nat → Nat → Nat → Nat
  | 0, _, _ => 0
  | count + 1, first, last =>
    let first := (first + 9) / 10
    let last := last / 10
    if first ≤ last then coarsening count first last + 1 else 0

/-- The nearer of the value's two neighbours on the grid of step `10 ^ k` that lie in the interval,
where one does; of two equally near ones `tie` takes one. -/
def Interval.nearest (i : Interval) (tie : Tie) (k : Int) : Nat :=
  let (unit, point) := scales i.q k
  let (first, last) := i.points k
  let below := i.middle * unit / point
  let twice := 2 * (i.middle * unit % point)
  if last ≤ below then below
  else if below < first then below + 1
  else if twice < point then below
  else if point < twice then below + 1
  else tie.point below

/-- The power of ten of the first digit of `m * 2 ^ q`, for `m` not zero. -/
def leadingPower (m : Nat) (q : Int) : Int :=
  let guess := ((m.log2 : Int) + q) * 30103 / 100000
  let reaches (k : Int) : Bool :=
    let (unit, point) := scales q k
    point ≤ m * unit
  if !reaches guess then guess - 1 else if reaches (guess + 1) then guess + 1 else guess

/-- The same number without zeros at the end of its digits. -/
def strip : Nat → Nat → Int → Nat × Int
  | 0, n, k => (n, k)
  | fuel + 1, n, k => if n % 10 = 0 ∧ n ≠ 0 then strip fuel (n / 10) (k + 1) else (n, k)

/-- The digits of `m * 2 ^ q` and the power of ten of the last: the fewest that read back, and of
those the nearest, where `tie` says which of two equally near ones. Seventeen digits always
suffice, so some point of the grid of eighteen digits lies in the interval. -/
def digits (tie : Tie) (m : Nat) (q : Int) : Nat × Int :=
  if m = 0 then (0, 0)
  else
    let i := Interval.around m q
    let finest := leadingPower m q - 17
    let (first, last) := i.points finest
    let k := finest + coarsening 17 first last
    strip 20 (i.nearest tie k) k

end Shortest

end CallTrace
