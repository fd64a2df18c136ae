/-
  LedgerQuery.Number.Scaled

  Doubles from decimals in two roundings: the digits are taken as a double, and that is
  multiplied or divided by the double nearest to the power of ten. The result may differ from the
  nearest double in the last place, and is refused when it is infinite.
-/
import LedgerQuery.Number.Binary64

namespace LedgerQuery.Binary64

/-- The greatest power of ten that a double holds. -/
def greatestPower : Nat := 308

/-- The double nearest to a power of ten. -/
def powerOfTen (n : Nat) : Binary64 := ofRatio false (Nat.pow 10 n) 1

/-- Divide by powers of ten, at most the greatest at a time. -/
def descend (x : Binary64) (exponent : Nat) : Binary64 :=
  if exponent ≤ greatestPower then x.div (powerOfTen exponent)
  else if x.magnitude = 0 then x
  else descend (x.div (powerOfTen greatestPower)) (exponent - greatestPower)
termination_by exponent
decreasing_by simp only [greatestPower] at *; omega

/-- The magnitude of `digits * 10 ^ exponent`, if it is finite. -/
def scaledMagnitude? (digits : Nat) (exponent : Int) : Option Binary64 :=
  let x := ofRatio false digits 1
  if exponent < 0 then some (x.descend exponent.natAbs)
  else if exponent ≤ greatestPower then
    let y := x.mul (powerOfTen exponent.toNat)
    if y.isFinite then some y else none
  else if x.magnitude = 0 then some x
  else none

/-- The double that `digits * 10 ^ exponent` is read as. -/
def ofDecimal? (negative : Bool) (digits : Nat) (exponent : Int) : Option Binary64 :=
  (scaledMagnitude? digits exponent).map fun x => if negative then x.negate else x

end LedgerQuery.Binary64
