/-
  LedgerQuery.Number.Shortest

  The shortest decimal that reads back as a given double. Every double stands for the interval
  of numbers that round to it; of the decimal grids 10^p with a point in that interval the
  coarsest is taken, and of its points the one nearest to the value.
-/
import LedgerQuery.Number.Binary64

namespace LedgerQuery

/-- The number `digits * 10 ^ exponent`. -/
structure Decimal where
  digits : Nat
  exponent : Int
  deriving DecidableEq, Repr

namespace Binary64

/-- The numbers that round to a positive finite double, in quarters of a unit of 2^-1074. The
    ends belong to it when the significand is even. -/
structure Interval where
  low : Nat
  value : Nat
  high : Nat
  closed : Bool

/-- Below a power of two the neighbour is only half as far away. -/
def interval (x : Binary64) : Interval :=
  let gap := 1 <<< x.scale
  let below := if x.significand = 1 <<< 52 ∧ 0 < x.scale then gap else 2 * gap
  { low := 4 * x.magnitude - below
    value := 4 * x.magnitude
    high := 4 * x.magnitude + 2 * gap
    closed := x.significand % 2 = 0 }

/-- Whether a point of the interval's scale lies in it. -/
def Interval.contains (i : Interval) (p : Nat) (scale : Nat) : Bool :=
  if i.closed then i.low * scale ≤ p && p ≤ i.high * scale
  else i.low * scale < p && p < i.high * scale

/-- The point of the grid of multiples of `unit / scale` that lies in the interval nearest to its
    value, a tie going to the even multiple. -/
def Interval.nearest? (i : Interval) (unit scale : Nat) : Option Nat :=
  let below := i.value * scale / unit
  let above := below + 1
  let lower := i.contains (below * unit) scale
  let upper := i.contains (above * unit) scale
  if lower && upper then
    let toLower := i.value * scale - below * unit
    let toUpper := above * unit - i.value * scale
    if toLower < toUpper then some below
    else if toUpper < toLower then some above
    else some (below + below % 2)
  else if lower then some below
  else if upper then some above
  else none

/-- The nearest point on the grid of powers `10 ^ exponent`. -/
def Interval.onGrid? (i : Interval) (exponent : Int) : Option Nat :=
  let quarters := 4 * unitsPerOne
  if 0 ≤ exponent then i.nearest? (quarters * Nat.pow 10 exponent.toNat) 1
  else i.nearest? quarters (Nat.pow 10 (-exponent).toNat)

/-- Try ever finer grids, `steps` of them at most. -/
def Interval.coarsest (i : Interval) : (steps : Nat) → (exponent : Int) → Decimal
  | 0, exponent => ⟨0, exponent⟩
  | steps + 1, exponent =>
    match i.onGrid? exponent with
    | some digits => ⟨digits, exponent⟩
    | none => i.coarsest steps (exponent - 1)

/-- The shortest decimal that reads back as a positive finite double. Its exponent is at most
    the one that the binary exponent gives, and 17 digits always tell doubles apart. -/
def shortest (x : Binary64) : Decimal :=
  let binary : Int := (x.magnitude.log2 : Int) - 1074
  x.interval.coarsest 24 (binary * 30103 / 100000 + 1)

end Binary64

end LedgerQuery
