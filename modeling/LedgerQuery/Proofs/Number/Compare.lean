/-
  LedgerQuery.Proofs.Number.Compare

  Comparing an integer with a double is exact. The comparison looks at the whole part of the double
  first and at its fraction only if that does not decide; the outcome is the order of the two values
  counted in the same unit, the smallest positive double (`compareInt?_eq_some`). Nothing is
  rounded on the way, however large the integer is.
-/
import LedgerQuery.Number.Binary64
import LedgerQuery.Order

namespace LedgerQuery

open Std

/-! ## Units -/

/-- Counting two values in a smaller unit keeps their order. -/
theorem compare_mul_unit (a b : Int) {unit : Int} (hunit : 0 < unit) :
    compare (a * unit) (b * unit) = compare a b := by
  have hless {a b : Int} : a < b ↔ a * unit < b * unit := (Int.mul_lt_mul_right hunit).symm
  exact (compare_eq_compare_map (· * unit) hless a b).symm

/-- The whole part, then what is left of it, give the order of an integer and a count of units. -/
theorem compare_then_tdiv (n count : Int) {unit : Int} (hunit : 0 < unit) :
    (compare n (count.tdiv unit)).then (compare (count.tdiv unit * unit) count) =
      compare (n * unit) count := by
  have hdivision := Int.mul_tdiv_add_tmod count unit
  have hupper := Int.tmod_lt_of_pos count hunit
  have hlower := Int.lt_tmod_of_pos count hunit
  generalize count.tdiv unit = whole at hdivision ⊢
  rw [Int.mul_comm] at hdivision
  -- The whole part is less than one unit away, on either side of zero.
  rcases Int.lt_trichotomy n whole with hlt | rfl | hgt
  · have hstep : (n + 1) * unit ≤ whole * unit :=
      Int.mul_le_mul_of_nonneg_right hlt (Int.le_of_lt hunit)
    rw [Int.add_mul, Int.one_mul] at hstep
    have hbelow : n * unit < count := by omega
    rw [Int.compare_eq_lt.2 hlt, Int.compare_eq_lt.2 hbelow]
    rfl
  · rw [compare_self]
    rfl
  · have hstep : (whole + 1) * unit ≤ n * unit :=
      Int.mul_le_mul_of_nonneg_right hgt (Int.le_of_lt hunit)
    rw [Int.add_mul, Int.one_mul] at hstep
    have habove : count < n * unit := by omega
    rw [Int.compare_eq_gt.2 hgt, Int.compare_eq_gt.2 habove]
    rfl

/-! ## Integers and doubles -/

/-- The order of 64-bit integers is that of the numbers they stand for. -/
theorem compare_eq_compare_toInt (a b : Int64) : compare a b = compare a.toInt b.toInt :=
  compare_eq_compare_map Int64.toInt Int64.lt_iff_toInt_lt a b

namespace Binary64

theorem unitsPerOne_pos : (0 : Int) < unitsPerOne := by
  unfold unitsPerOne
  rw [Nat.one_shiftLeft]
  exact Int.natCast_pos.2 (Nat.two_pow_pos 1074)

/-- A 64-bit integer and a double that is a number are compared by their exact values. -/
theorem compareInt?_eq_some (n : Int64) {x : Binary64} (hx : x.isNaN = false) :
    compareInt? n.toInt x = some (compare (n.toInt * unitsPerOne) x.units) := by
  have hpos := unitsPerOne_pos
  have hlimit : ((unitsPerOne <<< 63 : Nat) : Int) = 9223372036854775808 * unitsPerOne := by
    rw [Nat.shiftLeft_eq, Int.natCast_mul, Int.mul_comm]
    rfl
  have hlower : -9223372036854775808 ≤ n.toInt := n.le_toInt
  have hupper : n.toInt < 9223372036854775808 := n.toInt_lt
  unfold compareInt?
  rw [hx, if_neg Bool.false_ne_true, hlimit]
  split
  · rename_i hbeyond
    have hless := Int.mul_lt_mul_of_pos_right hupper hpos
    rw [Int.compare_eq_lt.2 (Int.lt_of_lt_of_le hless hbeyond)]
  · split
    · rename_i hbeyond
      have hless := Int.mul_le_mul_of_nonneg_right hlower (Int.le_of_lt hpos)
      rw [Int.compare_eq_gt.2 (by omega)]
    · rw [truncate, compare_then_tdiv n.toInt x.units hpos]

theorem compareInt?_eq_none (n : Int) {x : Binary64} (hx : x.isNaN = true) :
    compareInt? n x = none := if_pos hx

end Binary64

end LedgerQuery
