/-
  LedgerQuery.Proofs.Number.Whole

  Whole numbers as doubles. A whole number with more than 53 bits is rounded: it counts as the
  nearest multiple of the power of two that leaves it 53 bits, and of two equally near ones as the
  one whose quotient is even (`units_ofInt`).
-/
import LedgerQuery.Proofs.Number.Compare

namespace LedgerQuery.Binary64

/-! ## Rounding a quotient -/

theorem div_le_roundHalfEven (num den : Nat) : num / den ≤ roundHalfEven num den := by
  unfold roundHalfEven
  dsimp only
  split
  · exact Nat.le_refl _
  · split <;> omega

theorem roundHalfEven_le (num den : Nat) : roundHalfEven num den ≤ num / den + 1 := by
  unfold roundHalfEven
  dsimp only
  split
  · exact Nat.le_succ _
  · split <;> omega

/-- A factor common to both sides of a quotient does not change what it is rounded to. -/
theorem roundHalfEven_mul (num den : Nat) {factor : Nat} (h : 0 < factor) :
    roundHalfEven (num * factor) (den * factor) = roundHalfEven num den := by
  have hrest : 2 * (num * factor % (den * factor)) = 2 * (num % den) * factor := by
    rw [Nat.mul_mod_mul_right, Nat.mul_assoc]
  simp only [roundHalfEven, hrest, Nat.mul_div_mul_right _ _ h, Nat.mul_lt_mul_right h]

/-! ## Assembled words -/

/-- The positive double with the given bits. -/
def ofWord (word : Nat) : Binary64 := ⟨UInt64.ofNat word⟩

theorem toNat_ofWord {word : Nat} (h : word < 1 <<< 63) : (ofWord word).bits.toNat = word :=
  UInt64.toNat_ofNat_of_lt' (Nat.lt_trans h (by decide))

theorem word_ofWord {word : Nat} (h : word < 1 <<< 63) : (ofWord word).word = word := by
  rw [Binary64.word, toNat_ofWord h, Nat.mod_eq_of_lt h]

theorem isNegative_ofWord {word : Nat} (h : word < 1 <<< 63) :
    (ofWord word).isNegative = false := by
  rw [isNegative, toNat_ofWord h]
  exact decide_eq_false (Nat.not_le_of_lt h)

theorem isNaN_ofWord {word : Nat} (h : word ≤ infinityWord) : (ofWord word).isNaN = false := by
  rw [isNaN, word_ofWord (Nat.lt_of_le_of_lt h (by decide))]
  exact decide_eq_false (Nat.not_lt_of_le h)

/-- A significand put on top of an exponent field counts that power of two. One that was rounded
    up to 54 bits carries into the exponent, where it stands for the same number. -/
theorem units_ofWord {scale significand : Nat} (hlow : 1 <<< 52 ≤ significand)
    (hhigh : significand ≤ 1 <<< 53) (hbounded : scale ≤ 2045) :
    (ofWord (scale <<< 52 + significand)).units = (significand <<< scale : Nat) := by
  have hbelow : scale <<< 52 + significand < 1 <<< 63 := by
    simp only [Nat.shiftLeft_eq] at *
    omega
  rw [units, isNegative_ofWord hbelow, if_neg Bool.false_ne_true, magnitude,
    Binary64.significand, Binary64.scale, word_ofWord hbelow]
  rcases Nat.lt_or_eq_of_le hhigh with hfits | rfl
  · -- The leading bit of the significand counts in the exponent field.
    have hfield : (scale <<< 52 + significand) >>> 52 = scale + 1 := by
      simp only [Nat.shiftLeft_eq, Nat.shiftRight_eq_div_pow] at *
      omega
    have hrest : (scale <<< 52 + significand) % 1 <<< 52 + 1 <<< 52 = significand := by
      simp only [Nat.shiftLeft_eq] at *
      omega
    rw [hfield, if_neg (Nat.succ_ne_zero scale), hrest, Nat.add_sub_cancel]
  · -- The carry leaves the smallest significand and the next scale.
    have hfield : (scale <<< 52 + 1 <<< 53) >>> 52 = scale + 2 := by
      simp only [Nat.shiftLeft_eq, Nat.shiftRight_eq_div_pow]
      omega
    have hrest : (scale <<< 52 + 1 <<< 53) % 1 <<< 52 = 0 := by
      simp only [Nat.shiftLeft_eq]
      omega
    have hexponent : 52 + (scale + 2 - 1) = 53 + scale := by omega
    rw [hfield, if_neg (Nat.succ_ne_zero (scale + 1)), hrest, Nat.zero_add,
      ← Nat.shiftLeft_add, ← Nat.shiftLeft_add, hexponent]

/-! ## Whole numbers -/

/-- How many bits a whole number has beyond the 53 of a significand. -/
def excess (n : Nat) : Nat := n.log2 - 52

/-- The significand that a whole number with at least 53 bits is rounded to. -/
def rounded (n : Nat) : Nat := roundHalfEven n (1 <<< excess n)

variable {n : Nat}

theorem shiftLeft_excess_le (hwide : 52 ≤ n.log2) : 1 <<< 52 <<< excess n ≤ n := by
  have hpositive : n ≠ 0 := by
    rintro rfl
    simp at hwide
  rw [← Nat.shiftLeft_add, excess, Nat.add_sub_of_le hwide, Nat.one_shiftLeft]
  exact Nat.log2_self_le hpositive

theorem lt_shiftLeft_excess (hwide : 52 ≤ n.log2) : n < 1 <<< 53 <<< excess n := by
  have hlength : 53 + excess n = n.log2 + 1 := by
    unfold excess
    omega
  rw [← Nat.shiftLeft_add, hlength, Nat.one_shiftLeft]
  exact Nat.lt_log2_self

theorem le_rounded (hwide : 52 ≤ n.log2) : 1 <<< 52 ≤ rounded n := by
  refine Nat.le_trans ?_ (div_le_roundHalfEven n (1 <<< excess n))
  have hlow := shiftLeft_excess_le hwide
  rw [Nat.shiftLeft_eq _ (excess n)] at hlow
  rw [Nat.one_shiftLeft (excess n)]
  exact (Nat.le_div_iff_mul_le (Nat.two_pow_pos _)).2 hlow

theorem rounded_le (hwide : 52 ≤ n.log2) : rounded n ≤ 1 <<< 53 := by
  refine Nat.le_trans (roundHalfEven_le n (1 <<< excess n)) (Nat.succ_le_of_lt ?_)
  have hhigh := lt_shiftLeft_excess hwide
  rw [Nat.shiftLeft_eq _ (excess n)] at hhigh
  rw [Nat.one_shiftLeft (excess n)]
  exact Nat.div_lt_of_lt_mul (Nat.mul_comm _ _ ▸ hhigh)

theorem log2_shiftLeft (h : n ≠ 0) (k : Nat) : (n <<< k).log2 = n.log2 + k := by
  have hpositive := Nat.two_pow_pos k
  have hlow := Nat.mul_le_mul_right (2 ^ k) (Nat.log2_self_le h)
  have hhigh := Nat.mul_lt_mul_of_pos_right (Nat.lt_log2_self (n := n)) hpositive
  rw [← Nat.pow_add] at hlow hhigh
  rw [Nat.shiftLeft_eq, Nat.log2_eq_iff (Nat.mul_ne_zero h (Nat.ne_of_gt hpositive))]
  exact ⟨hlow, by rwa [Nat.add_right_comm]⟩

theorem assembled_le (hwide : 52 ≤ n.log2) (hbounded : n.log2 ≤ 1023) :
    (excess n + 1074) <<< 52 + rounded n ≤ infinityWord := by
  have hcarry := rounded_le hwide
  simp only [excess, infinityWord, Nat.shiftLeft_eq] at *
  omega

/-- The bits of the double nearest to a whole number. -/
theorem ofInt_eq_ofWord (hwide : 52 ≤ n.log2) (hbounded : n.log2 ≤ 1023) :
    ofInt n = ofWord ((excess n + 1074) <<< 52 + rounded n) := by
  have hnonzero : n ≠ 0 := by
    rintro rfl
    simp at hwide
  have hsign : decide ((n : Int) < 0) = false :=
    decide_eq_false (Int.not_lt.2 (Int.natCast_nonneg n))
  have hscaled : n * unitsPerOne = n <<< 1074 := by
    rw [unitsPerOne, Nat.one_shiftLeft, Nat.shiftLeft_eq]
  have hshift : (n <<< 1074).log2 - 52 = excess n + 1074 := by
    rw [log2_shiftLeft hnonzero, excess]
    omega
  -- Counting in units of 2^-1074 scales both sides of the quotient that is rounded.
  have hrounded : roundHalfEven (n <<< 1074) (1 <<< (excess n + 1074)) = rounded n := by
    rw [Nat.shiftLeft_add, Nat.shiftLeft_eq n, Nat.shiftLeft_eq _ 1074]
    exact roundHalfEven_mul n _ (Nat.two_pow_pos 1074)
  simp only [ofInt, ofRatio, hsign, Int.natAbs_natCast, hscaled, Nat.div_one, hshift, hrounded,
    Nat.min_eq_left (assembled_le hwide hbounded)]
  rfl

theorem isNaN_ofInt (hwide : 52 ≤ n.log2) (hbounded : n.log2 ≤ 1023) :
    (ofInt n).isNaN = false := by
  rw [ofInt_eq_ofWord hwide hbounded]
  exact isNaN_ofWord (assembled_le hwide hbounded)

/-- A whole number with at least 53 bits counts as the nearest number whose significand fits. -/
theorem units_ofInt (hwide : 52 ≤ n.log2) (hbounded : n.log2 ≤ 1023) :
    (ofInt n).units = ((rounded n <<< excess n : Nat) : Int) * unitsPerOne := by
  have hscale : excess n + 1074 ≤ 2045 := by
    unfold excess
    omega
  rw [ofInt_eq_ofWord hwide hbounded, units_ofWord (le_rounded hwide) (rounded_le hwide) hscale,
    Nat.shiftLeft_add, unitsPerOne, Nat.one_shiftLeft, Nat.shiftLeft_eq _ 1074, Int.natCast_mul]

end LedgerQuery.Binary64
