/-
  LedgerQuery.Proofs.Number.Exact

  The exact value of a double, read off the three fields of its bits: one bit of sign, eleven of
  exponent, and 52 of fraction. It is a dyadic rational or an infinity, and what is no number has
  none. The count of units that comparisons go by stands for that value (`extended?_eq_ofUnits`),
  and values are ordered as their counts are (`compare_ofUnits`).
-/
import Mathlib.Data.Rat.Floor
import Mathlib.Order.WithBotTop
import LedgerQuery.Proofs.Number.Compare

namespace LedgerQuery

/-- The rational numbers and both infinities. -/
abbrev Extended := WithBotTop ℚ

namespace Binary64

variable {x : Binary64} {u v : Int}

/-! ## Fields -/

/-- The exponent as it is written, eleven bits. -/
def exponentField (x : Binary64) : Nat := x.bits.toNat / 2 ^ 52 % 2 ^ 11

/-- The fraction, the lowest 52 bits. -/
def fractionField (x : Binary64) : Nat := x.bits.toNat % 2 ^ 52

/-- The distance from zero of a finite number. Numbers with the smallest exponent have no leading
    bit. -/
def distance (x : Binary64) : ℚ :=
  if x.exponentField = 0 then x.fractionField * 2 ^ (-1074 : ℤ)
  else (2 ^ 52 + x.fractionField) * 2 ^ ((x.exponentField : ℤ) - 1075)

/-- The exact value, if there is one: with the greatest exponent an infinity, if the fraction is
    zero, and no number if not. -/
def extended? (x : Binary64) : Option Extended :=
  let negative := 2 ^ 63 ≤ x.bits.toNat
  if x.exponentField < 2047 then
    some ((if negative then -x.distance else x.distance : ℚ) : Extended)
  else if x.fractionField = 0 then some (if negative then ⊥ else ⊤)
  else none

theorem exponentField_le (x : Binary64) : x.exponentField ≤ 2047 := by
  unfold exponentField
  omega

theorem fractionField_lt (x : Binary64) : x.fractionField < 2 ^ 52 := Nat.mod_lt _ (by decide)

/-- Without the sign, the exponent stands above the fraction. -/
theorem word_eq (x : Binary64) : x.word = x.exponentField * 2 ^ 52 + x.fractionField := by
  unfold word exponentField fractionField
  rw [Nat.one_shiftLeft]
  omega

theorem word_shiftRight (x : Binary64) : x.word >>> 52 = x.exponentField := by
  have hfraction := x.fractionField_lt
  rw [word_eq, Nat.shiftRight_eq_div_pow]
  omega

theorem word_mod (x : Binary64) : x.word % 1 <<< 52 = x.fractionField := by
  have hfraction := x.fractionField_lt
  rw [word_eq, Nat.one_shiftLeft]
  omega

theorem scale_eq (x : Binary64) : x.scale = x.exponentField - 1 := by
  rw [scale, word_shiftRight]

theorem significand_eq (x : Binary64) : x.significand =
    if x.exponentField = 0 then x.fractionField else x.fractionField + 2 ^ 52 := by
  rw [significand, word_shiftRight, word_mod, Nat.one_shiftLeft]

theorem isNegative_eq (x : Binary64) : x.isNegative = decide (2 ^ 63 ≤ x.bits.toNat) := by
  rw [isNegative, Nat.one_shiftLeft]

theorem isNaN_iff : x.isNaN = true ↔ x.exponentField = 2047 ∧ x.fractionField ≠ 0 := by
  have hexponent := x.exponentField_le
  have hfraction := x.fractionField_lt
  rw [isNaN, decide_eq_true_iff, infinityWord, word_eq, Nat.shiftLeft_eq]
  omega

/-- Exactly what is no number has no value. -/
theorem extended?_eq_none_iff : x.extended? = none ↔ x.isNaN = true := by
  have hexponent := x.exponentField_le
  rw [isNaN_iff, extended?]
  split
  · rename_i hfinite
    refine iff_of_false (Option.some_ne_none _) ?_
    omega
  · split
    · rename_i hzero
      exact iff_of_false (Option.some_ne_none _) fun h => h.2 hzero
    · rename_i hfinite hnonzero
      exact iff_of_true rfl ⟨by omega, hnonzero⟩

/-! ## Counts of units -/

theorem cast_one_shiftLeft (k : Nat) : ((1 <<< k : Nat) : ℚ) = (2 : Nat) ^ k := by
  rw [Nat.one_shiftLeft, Nat.cast_pow]

theorem one_shiftLeft_lt {k l : Nat} (h : k < l) : 1 <<< k < 1 <<< l := by
  rw [Nat.one_shiftLeft, Nat.one_shiftLeft]
  exact Nat.pow_lt_pow_right (by decide) h

/-- How many units an infinity counts. -/
def infinityUnits : Nat := 1 <<< 2098

/-- The value that a count of units stands for. -/
def ofUnits (u : Int) : Extended :=
  if u ≤ -(infinityUnits : Int) then ⊥
  else if infinityUnits ≤ u then ⊤
  else ((u / unitsPerOne : ℚ) : Extended)

theorem infinityUnits_pos : 0 < infinityUnits := by
  rw [infinityUnits, Nat.one_shiftLeft]
  exact Nat.two_pow_pos 2098

theorem ofUnits_finite (hlow : -(infinityUnits : Int) < u) (hhigh : u < infinityUnits) :
    ofUnits u = ((u / unitsPerOne : ℚ) : Extended) := by
  rw [ofUnits, if_neg (Int.not_le.2 hlow), if_neg (Int.not_le.2 hhigh)]

theorem ofUnits_top : ofUnits infinityUnits = ⊤ := by
  have hpos := infinityUnits_pos
  rw [ofUnits, if_neg (by omega), if_pos (Int.le_refl _)]

theorem ofUnits_bot : ofUnits (-(infinityUnits : Int)) = ⊥ := if_pos (Int.le_refl _)

/-- A greater count stands for a greater value, as long as none is beyond an infinity. -/
theorem ofUnits_lt (hulow : -(infinityUnits : Int) ≤ u) (huv : u < v)
    (hvhigh : v ≤ infinityUnits) : ofUnits u < ofUnits v := by
  have hpos := infinityUnits_pos
  have hufinite : u < infinityUnits := Int.lt_of_lt_of_le huv hvhigh
  have hvfinite : -(infinityUnits : Int) < v := Int.lt_of_le_of_lt hulow huv
  rcases Int.lt_or_eq_of_le hulow with hu | rfl
  · rw [ofUnits_finite hu hufinite]
    rcases Int.lt_or_eq_of_le hvhigh with hv | rfl
    · -- Between the infinities the count is divided by a positive number.
      rw [ofUnits_finite hvfinite hv, WithBotTop.coe_lt_coe]
      have hone : (0 : ℚ) < unitsPerOne := Nat.cast_pos.2 (Int.natCast_pos.1 unitsPerOne_pos)
      exact (div_lt_div_iff_of_pos_right hone).2 (Int.cast_lt.2 huv)
    · rw [ofUnits_top]
      exact WithBot.coe_lt_coe.2 (WithTop.coe_lt_top _)
  · rw [ofUnits_bot]
    rcases Int.lt_or_eq_of_le hvhigh with hv | rfl
    · rw [ofUnits_finite hvfinite hv]
      exact WithBot.bot_lt_coe _
    · rw [ofUnits_top]
      exact WithBot.bot_lt_coe _

/-- Values are ordered as their counts are. -/
theorem compare_ofUnits (hu : u.natAbs ≤ infinityUnits) (hv : v.natAbs ≤ infinityUnits) :
    compare (ofUnits u) (ofUnits v) = compare u v := by
  rcases Int.lt_trichotomy u v with huv | rfl | hvu
  · rw [compare_lt_iff_lt.2 huv, compare_lt_iff_lt]
    exact ofUnits_lt (by omega) huv (by omega)
  · rw [compare_eq_iff_eq.2 rfl, compare_eq_iff_eq.2 rfl]
  · rw [compare_gt_iff_gt.2 hvu, compare_gt_iff_gt]
    exact ofUnits_lt (by omega) hvu (by omega)

/-! ## The count of a double -/

/-- A finite number counts less than an infinity. -/
theorem magnitude_lt (h : x.exponentField < 2047) : x.magnitude < infinityUnits := by
  have hfraction := x.fractionField_lt
  have hsignificand : x.significand < 2 ^ 53 := by
    rw [significand_eq]
    split <;> omega
  have hscale : x.scale ≤ 2045 := by
    rw [scale_eq]
    omega
  calc x.magnitude = x.significand * 2 ^ x.scale := Nat.shiftLeft_eq _ _
    _ < 2 ^ 53 * 2 ^ x.scale := Nat.mul_lt_mul_of_pos_right hsignificand (Nat.two_pow_pos _)
    _ = 2 ^ (53 + x.scale) := (Nat.pow_add 2 53 x.scale).symm
    _ ≤ 2 ^ 2098 := Nat.pow_le_pow_right two_pos (by omega)
    _ = infinityUnits := (Nat.one_shiftLeft 2098).symm

/-- An infinity counts as much as is set aside for it. -/
theorem magnitude_infinite (h : x.exponentField = 2047) (hzero : x.fractionField = 0) :
    x.magnitude = infinityUnits := by
  rw [magnitude, significand_eq, scale_eq, h, hzero, if_neg (by decide), Nat.zero_add,
    ← Nat.one_shiftLeft, ← Nat.shiftLeft_add, infinityUnits]

/-- The distance of a finite number from zero is its count in units of 2^-1074. -/
theorem distance_eq (x : Binary64) : x.distance = x.magnitude / unitsPerOne := by
  have hone : (unitsPerOne : ℚ) = (2 : Nat) ^ 1074 := cast_one_shiftLeft 1074
  rw [distance, magnitude, significand_eq, scale_eq, hone, Nat.shiftLeft_eq, Nat.cast_mul,
    Nat.cast_pow]
  split
  · rename_i hzero
    rw [hzero, zpow_neg, div_eq_mul_inv]
    simp
  · rename_i hpositive
    have hexponent : (x.exponentField : ℤ) - 1075 = (x.exponentField - 1 : Nat) - (1074 : Nat) := by
      omega
    rw [hexponent, zpow_sub₀ two_ne_zero, zpow_natCast, zpow_natCast, mul_div_assoc, Nat.cast_add,
      Nat.cast_pow, add_comm, Nat.cast_ofNat]

/-- What a number counts is at most what an infinity counts, and stands for its exact value. -/
theorem extended?_eq_ofUnits (h : x.isNaN = false) :
    x.extended? = some (ofUnits x.units) ∧ x.units.natAbs ≤ infinityUnits := by
  have hpos := infinityUnits_pos
  have hsign := x.isNegative_eq
  rw [extended?, units]
  by_cases hfinite : x.exponentField < 2047
  · have hbelow := magnitude_lt hfinite
    rw [if_pos hfinite, distance_eq]
    by_cases hnegative : 2 ^ 63 ≤ x.bits.toNat
    · rw [hsign, decide_eq_true hnegative, if_pos hnegative, if_pos rfl,
        ofUnits_finite (by omega) (by omega), Int.cast_neg, neg_div, Int.cast_natCast]
      exact ⟨rfl, by omega⟩
    · rw [hsign, decide_eq_false hnegative, if_neg hnegative, if_neg Bool.false_ne_true,
        ofUnits_finite (by omega) (by omega), Int.cast_natCast]
      exact ⟨rfl, by omega⟩
  · have hexponent : x.exponentField = 2047 := Nat.le_antisymm x.exponentField_le (by omega)
    have hzero : x.fractionField = 0 := by
      by_contra hnonzero
      exact Bool.eq_false_iff.1 h (isNaN_iff.2 ⟨hexponent, hnonzero⟩)
    rw [if_neg hfinite, if_pos hzero, magnitude_infinite hexponent hzero]
    by_cases hnegative : 2 ^ 63 ≤ x.bits.toNat
    · rw [hsign, decide_eq_true hnegative, if_pos hnegative, if_pos rfl, ofUnits_bot]
      exact ⟨rfl, by omega⟩
    · rw [hsign, decide_eq_false hnegative, if_neg hnegative, if_neg Bool.false_ne_true,
        ofUnits_top]
      exact ⟨rfl, by omega⟩

/-! ## Whole numbers -/

/-- A whole number of 64 bits, or one more, counts less than an infinity. -/
theorem natAbs_mul_lt {n : Int} (h : n.natAbs ≤ 2 ^ 63) :
    (n * unitsPerOne).natAbs < infinityUnits := by
  calc (n * unitsPerOne).natAbs = n.natAbs * unitsPerOne := Int.natAbs_mul n unitsPerOne
    _ ≤ 2 ^ 63 * unitsPerOne := Nat.mul_le_mul_right _ h
    _ = 1 <<< (1074 + 63) := by rw [Nat.shiftLeft_add, Nat.shiftLeft_eq _ 63, Nat.mul_comm]; rfl
    _ < infinityUnits := one_shiftLeft_lt (by decide)

theorem ofUnits_mul {n : Int} (h : n.natAbs ≤ 2 ^ 63) :
    ofUnits (n * unitsPerOne) = ((n : ℚ) : Extended) := by
  have hbelow := natAbs_mul_lt h
  have hone : (unitsPerOne : ℚ) ≠ 0 :=
    Nat.cast_ne_zero.2 (Nat.ne_of_gt (Int.natCast_pos.1 unitsPerOne_pos))
  rw [ofUnits_finite (by omega) (by omega), Int.cast_mul, Int.cast_natCast,
    mul_div_cancel_right₀ _ hone]

/-- A count lies on the same side of a whole number's count as the values do. -/
theorem mul_le_units_iff {n : Int} (h : n.natAbs ≤ 2 ^ 63) (hu : u.natAbs ≤ infinityUnits) :
    n * unitsPerOne ≤ u ↔ ((n : ℚ) : Extended) ≤ ofUnits u := by
  have hbelow := natAbs_mul_lt h
  rw [← ofUnits_mul h, ← compare_le_iff_le, ← compare_le_iff_le,
    compare_ofUnits (Nat.le_of_lt hbelow) hu]

/-- The whole part of a count is the part of its value before the point. -/
theorem tdiv_unitsPerOne (u : Int) :
    u.tdiv unitsPerOne =
      if 0 ≤ (u / unitsPerOne : ℚ) then ⌊(u / unitsPerOne : ℚ)⌋ else ⌈(u / unitsPerOne : ℚ)⌉ := by
  have hone : (0 : ℚ) < unitsPerOne := Nat.cast_pos.2 (Int.natCast_pos.1 unitsPerOne_pos)
  have hsign : 0 ≤ (u / unitsPerOne : ℚ) ↔ 0 ≤ u := by
    rw [le_div_iff₀ hone, zero_mul, Int.cast_nonneg_iff]
  rw [Rat.floor_intCast_div_natCast, Rat.ceil_intCast_div_natCast]
  split
  · rename_i hnonneg
    exact Int.tdiv_eq_ediv_of_nonneg (hsign.1 hnonneg)
  · rename_i hnegative
    have hflipped : 0 ≤ -u := by
      have := mt hsign.2 hnegative
      omega
    rw [← Int.tdiv_eq_ediv_of_nonneg hflipped, Int.neg_tdiv, Int.neg_neg]

end Binary64

end LedgerQuery
