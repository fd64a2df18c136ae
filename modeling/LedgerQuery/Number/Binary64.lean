/-
  LedgerQuery.Number.Binary64

  IEEE double-precision numbers as their 64 bits. A value is an integer count of units of
  2^-1074, the smallest positive double, so comparison and rounding are exact integer arithmetic.
  An infinity counts as 2^1024, above every finite value, which gives it its place in the order.
-/

namespace LedgerQuery

/-- A double-precision number, given by its bits. -/
structure Binary64 where
  bits : UInt64
  deriving DecidableEq, Repr

namespace Binary64

/-! ## Fields -/

/-- The bits of positive infinity, which bound those of every finite magnitude. -/
def infinityWord : Nat := 2047 <<< 52

def isNegative (x : Binary64) : Bool := decide (1 <<< 63 ≤ x.bits.toNat)

/-- The bits without the sign. -/
def word (x : Binary64) : Nat := x.bits.toNat % 1 <<< 63

def isNaN (x : Binary64) : Bool := decide (infinityWord < x.word)

def isInfinite (x : Binary64) : Bool := decide (x.word = infinityWord)

def isFinite (x : Binary64) : Bool := decide (x.word < infinityWord)

/-- The exponent field less one, and zero for the subnormal numbers: the power of two, in units
    of 2^-1074, that the significand counts. -/
def scale (x : Binary64) : Nat := x.word >>> 52 - 1

/-- The 53-bit significand, with the leading bit that normal numbers leave out. -/
def significand (x : Binary64) : Nat :=
  if x.word >>> 52 = 0 then x.word % 1 <<< 52 else x.word % 1 <<< 52 + 1 <<< 52

/-- The distance from zero in units of 2^-1074. -/
def magnitude (x : Binary64) : Nat := x.significand <<< x.scale

/-- The value in units of 2^-1074. -/
def units (x : Binary64) : Int := if x.isNegative then -(x.magnitude : Int) else x.magnitude

/-- How many units make one. -/
def unitsPerOne : Nat := 1 <<< 1074

def zero : Binary64 := ⟨0⟩

def negativeZero : Binary64 := ⟨0x8000000000000000⟩

def infinity : Binary64 := ⟨0x7FF0000000000000⟩

def negativeInfinity : Binary64 := ⟨0xFFF0000000000000⟩

def nan : Binary64 := ⟨0x7FF8000000000000⟩

/-- The number with the other sign. -/
def negate (x : Binary64) : Binary64 := ⟨x.bits ^^^ 0x8000000000000000⟩

/-! ## Order -/

/-- The order of two values; a NaN is not ordered. -/
def compare? (x y : Binary64) : Option Ordering :=
  if x.isNaN || y.isNaN then none else some (compare x.units y.units)

/-- The part before the point, toward zero. -/
def truncate (x : Binary64) : Int := x.units.tdiv unitsPerOne

/-- The order of a 64-bit integer and a value. Values outside the range of such integers are
    settled first; inside it the whole parts are compared, then the fraction decides. -/
def compareInt? (n : Int) (x : Binary64) : Option Ordering :=
  if x.isNaN then none
  else if (unitsPerOne <<< 63 : Nat) ≤ x.units then some .lt
  else if x.units < -(unitsPerOne <<< 63 : Nat) then some .gt
  else some ((compare n x.truncate).then (compare (x.truncate * unitsPerOne) x.units))

/-- Equality of values: both zeros are equal, and a NaN equals nothing. -/
def sameValue (x y : Binary64) : Bool := x.compare? y == some .eq

/-! ## Rounding -/

/-- The quotient of two numbers, to the nearest integer; a tie goes to the even one. -/
def roundHalfEven (num den : Nat) : Nat :=
  let whole := num / den
  let rest := num % den
  if 2 * rest < den then whole
  else if den < 2 * rest then whole + 1
  else whole + whole % 2

/-- The double nearest to a quotient, a tie going to the even significand; past the largest
    finite value, an infinity. -/
def ofRatio (negative : Bool) (num den : Nat) : Binary64 :=
  let scaled := num * unitsPerOne
  let shift := (scaled / den).log2 - 52
  let word := min (shift <<< 52 + roundHalfEven scaled (den <<< shift)) infinityWord
  ⟨UInt64.ofNat (if negative then word + 1 <<< 63 else word)⟩

/-- The double nearest to an integer. -/
def ofInt (n : Int) : Binary64 := ofRatio (n < 0) n.natAbs 1

/-- The product, rounded; an infinity times zero is no number. -/
def mul (x y : Binary64) : Binary64 :=
  let negative := x.isNegative != y.isNegative
  if x.isNaN || y.isNaN then nan
  else if x.isInfinite || y.isInfinite then
    if x.magnitude = 0 ∨ y.magnitude = 0 then nan
    else if negative then negativeInfinity else infinity
  else ofRatio negative (x.magnitude * y.magnitude) (unitsPerOne * unitsPerOne)

/-- The quotient of two finite numbers, rounded; the divisor is not zero. -/
def div (x y : Binary64) : Binary64 :=
  ofRatio (x.isNegative != y.isNegative) x.magnitude y.magnitude

/-- The nearest integer, a half going away from zero. -/
def roundHalfAway (x : Binary64) : Int :=
  let nearest : Int := ((2 * x.magnitude + unitsPerOne) / (2 * unitsPerOne) : Nat)
  if x.isNegative then -nearest else nearest

/-- The nearest 64-bit integer: a value out of range goes to the end it lies beyond, a NaN
    to zero. -/
def toInt64 (x : Binary64) : Int :=
  if x.isNaN then 0 else max (-9223372036854775808) (min x.roundHalfAway 9223372036854775807)

end Binary64

end LedgerQuery
