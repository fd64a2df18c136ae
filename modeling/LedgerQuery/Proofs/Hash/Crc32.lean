/-
  LedgerQuery.Proofs.Hash.Crc32

  What a checksum tells apart. The register goes through bijections only: a shift can be taken back,
  because the bit that is shifted out comes in again on top (`getLsbD_shift_top`), and so can the
  exclusive or with a byte. So a difference, once it is in the register, stays there however many
  bytes follow. It gets there too if it lies within as many bytes as the register has, since these
  go in as one word (`run_eq_shifts`). Main statement: `checksum_ne`.
-/
import LedgerQuery.Hash.Crc32
import LedgerQuery.Proofs.Wire.Binary

namespace LedgerQuery.Crc32

open Binary

/-! ## Shifts -/

/-- The bit that a shift puts on top is the one that it takes out. -/
theorem getLsbD_shift_top (r : Register) : (shift r).getLsbD 31 = r.getLsbD 0 := by
  have htop : (r >>> 1).getLsbD 31 = false := by
    rw [BitVec.getLsbD_ushiftRight, BitVec.getLsbD_of_ge r (1 + 31) (by decide)]
  have htopOfPolynomial : polynomial.getLsbD 31 = true := by decide
  unfold shift
  cases hlow : r.getLsbD 0 with
  | false => rw [if_neg Bool.false_ne_true, htop]
  | true => rw [if_pos rfl, BitVec.getLsbD_xor, htop, htopOfPolynomial, Bool.false_xor]

/-- A register is its lowest bit and the bits above it. -/
theorem eq_of_ushiftRight_eq {a b : Register} (hlow : a.getLsbD 0 = b.getLsbD 0)
    (hhigh : a >>> 1 = b >>> 1) : a = b := by
  refine BitVec.eq_of_getLsbD_eq fun i _ => ?_
  cases i with
  | zero => exact hlow
  | succ i =>
    have hbits : (a >>> 1).getLsbD i = (b >>> 1).getLsbD i := by rw [hhigh]
    rwa [BitVec.getLsbD_ushiftRight, BitVec.getLsbD_ushiftRight, Nat.add_comm] at hbits

theorem shift_inj {a b : Register} : shift a = shift b ↔ a = b := by
  refine ⟨fun h => ?_, fun h => h ▸ rfl⟩
  -- Both take the polynomial with them, or neither does.
  have hlow : a.getLsbD 0 = b.getLsbD 0 := by
    rw [← getLsbD_shift_top, ← getLsbD_shift_top, h]
  unfold shift at h
  rw [← hlow] at h
  refine eq_of_ushiftRight_eq hlow ?_
  split at h
  · exact (BitVec.xor_left_inj _).1 h
  · exact h

theorem shifts_inj {n : Nat} {a b : Register} : shifts n a = shifts n b ↔ a = b := by
  induction n generalizing a b with
  | zero => exact Iff.rfl
  | succ n ih => rw [shifts, shifts, ih, shift_inj]

theorem shifts_add (m n : Nat) (r : Register) : shifts (m + n) r = shifts m (shifts n r) := by
  induction n generalizing r with
  | zero => rfl
  | succ n ih => exact ih (shift r)

/-- Bits that are not shifted out yet only move down by a shift. -/
theorem shift_xor_shiftLeft {a b : Register} (hsmall : b.getLsbD 31 = false) :
    shift (a ^^^ b <<< 1) = shift a ^^^ b := by
  have hlow : (a ^^^ b <<< 1).getLsbD 0 = a.getLsbD 0 := by
    simp
  have hmoved : (b <<< 1) >>> 1 = b := by
    refine BitVec.eq_of_getLsbD_eq fun i hi => ?_
    rw [BitVec.getLsbD_ushiftRight, BitVec.getLsbD_shiftLeft]
    rcases Nat.lt_or_eq_of_le (Nat.le_of_lt_succ hi) with hbelow | rfl
    · simp [show 1 + i < 32 by omega]
    · rw [hsmall]
      rfl
  unfold shift
  rw [hlow, BitVec.ushiftRight_xor_distrib, hmoved]
  split
  · rw [BitVec.xor_assoc, BitVec.xor_comm b, ← BitVec.xor_assoc]
  · rfl

/-- The same for several shifts, as long as the register has room for the bits. -/
theorem shifts_xor_shiftLeft {n : Nat} {a b : Register}
    (hsmall : ∀ i, 32 ≤ i + n → b.getLsbD i = false) :
    shifts n (a ^^^ b <<< n) = shifts n a ^^^ b := by
  induction n generalizing a with
  | zero => rw [BitVec.shiftLeft_zero, shifts, shifts]
  | succ n ih =>
    have htop : (b <<< n).getLsbD 31 = false := by
      rw [BitVec.getLsbD_shiftLeft]
      by_cases h : 31 < n
      · simp [h]
      · rw [hsmall (31 - n) (by omega), Bool.and_false]
    rw [shifts, shifts, BitVec.shiftLeft_add, shift_xor_shiftLeft htop]
    exact ih fun i hi => hsmall i (by omega)

/-! ## Bytes -/

theorem run_append (r : Register) (front back : Bytes) :
    run r (front ++ back) = run (run r front) back := List.foldl_append

theorem step_inj {a b : Register} {byte : UInt8} : step a byte = step b byte ↔ a = b := by
  rw [step, step, shifts_inj, BitVec.xor_left_inj]

/-- What is in the register stays there, whatever follows. -/
theorem run_inj {a b : Register} {bytes : Bytes} : run a bytes = run b bytes ↔ a = b := by
  induction bytes generalizing a b with
  | nil => exact Iff.rfl
  | cons byte bytes ih => exact ih.trans step_inj

/-- A byte string as a word, the first byte at the bottom. -/
def packed (bytes : Bytes) : Register := BitVec.ofNat 32 (ofLittleEndian bytes)

theorem packed_cons (byte : UInt8) (bytes : Bytes) :
    packed (byte :: bytes) = byte.toBitVec.setWidth 32 ^^^ packed bytes <<< 8 := by
  refine BitVec.eq_of_getLsbD_eq fun i hi => ?_
  have hparts : ofLittleEndian (byte :: bytes) = 2 ^ 8 * ofLittleEndian bytes + byte.toNat :=
    Nat.add_comm _ _
  rw [packed, hparts, BitVec.getLsbD_ofNat, Nat.testBit_two_pow_mul_add _ byte.toNat_lt,
    BitVec.getLsbD_xor, BitVec.getLsbD_setWidth, BitVec.getLsbD_shiftLeft, packed,
    BitVec.getLsbD_ofNat]
  -- The byte has the lowest eight bits, those that follow it have the bits above.
  by_cases hbelow : i < 8
  · have hbit : byte.toBitVec.getLsbD i = byte.toNat.testBit i := rfl
    simp only [hi, hbelow, hbit, decide_true, Bool.true_and, Bool.not_true, Bool.false_and, if_true,
      Bool.xor_false]
  · have hnone : byte.toBitVec.getLsbD i = false := BitVec.getLsbD_of_ge _ _ (Nat.not_lt.1 hbelow)
    have hinside : i - 8 < 32 := by omega
    simp only [hi, hbelow, hnone, hinside, decide_true, decide_false, Bool.true_and, Bool.not_false,
      Bool.and_false, if_false, Bool.false_xor]

/-- A word has no bits above its bytes. -/
theorem getLsbD_packed {bytes : Bytes} {i : Nat} (h : 8 * bytes.length ≤ i) :
    (packed bytes).getLsbD i = false := by
  have hsmall : ofLittleEndian bytes < 2 ^ i := by
    calc ofLittleEndian bytes
      _ < Nat.pow 256 bytes.length := ofLittleEndian_lt bytes
      _ = 2 ^ (8 * bytes.length) := (Nat.pow_mul 2 8 bytes.length).symm
      _ ≤ 2 ^ i := Nat.pow_le_pow_right (by decide) h
  rw [packed, BitVec.getLsbD_ofNat, Nat.testBit_lt_two_pow hsmall, Bool.and_false]

/-- As many bytes as the register has go in as one word. -/
theorem run_eq_shifts {bytes : Bytes} (h : bytes.length ≤ 4) (r : Register) :
    run r bytes = shifts (8 * bytes.length) (r ^^^ packed bytes) := by
  induction bytes generalizing r with
  | nil => rw [packed, ofLittleEndian, List.length_nil, Nat.mul_zero, shifts, BitVec.xor_zero]; rfl
  | cons byte bytes ih =>
    rw [List.length_cons] at h
    -- The bytes that follow wait above the first until its eight bits are shifted out.
    calc run r (byte :: bytes)
      _ = run (step r byte) bytes := rfl
      _ = shifts (8 * bytes.length) (step r byte ^^^ packed bytes) := ih (by omega) _
      _ = shifts (8 * bytes.length)
            (shifts 8 (r ^^^ byte.toBitVec.setWidth 32 ^^^ packed bytes <<< 8)) := by
          rw [step, shifts_xor_shiftLeft fun i hi => getLsbD_packed (by omega)]
      _ = shifts (8 * bytes.length + 8) (r ^^^ packed (byte :: bytes)) := by
          rw [shifts_add, packed_cons, BitVec.xor_assoc]

/-- Byte strings of at most four bytes that differ make different words. -/
theorem packed_inj {a b : Bytes} (hlength : a.length = b.length) (h : a.length ≤ 4) :
    packed a = packed b ↔ a = b := by
  have hsmall {bytes : Bytes} (h : bytes.length ≤ 4) : ofLittleEndian bytes < 2 ^ 32 :=
    Nat.lt_of_lt_of_le (ofLittleEndian_lt bytes) (Nat.pow_le_pow_right (by decide) h)
  refine Iff.trans ⟨fun hsame => ?_, fun hsame => congrArg (BitVec.ofNat 32) hsame⟩
    (ofLittleEndian_inj hlength)
  have hnumbers := congrArg BitVec.toNat hsame
  rwa [packed, packed, BitVec.toNat_ofNat, BitVec.toNat_ofNat, Nat.mod_eq_of_lt (hsmall h),
    Nat.mod_eq_of_lt (hsmall (hlength ▸ h))] at hnumbers

/-! ## Checksums -/

/-- A change within four bytes changes the checksum, wherever it is. -/
theorem checksum_ne {front a b back : Bytes} (hlength : a.length = b.length) (h : a.length ≤ 4)
    (hne : a ≠ b) : checksum (front ++ a ++ back) ≠ checksum (front ++ b ++ back) := by
  intro hsame
  have h' : b.length ≤ 4 := hlength ▸ h
  -- Undone from the end: the inversion, what follows the change, the shifts, what is before it.
  have hregisters : run (BitVec.allOnes 32) (front ++ a ++ back) =
      run (BitVec.allOnes 32) (front ++ b ++ back) :=
    BitVec.not_inj.1 (congrArg UInt32.toBitVec hsame)
  rw [run_append, run_append _ (front ++ b), run_inj, run_append, run_append, run_eq_shifts h,
    run_eq_shifts h', hlength, shifts_inj, BitVec.xor_right_inj,
    packed_inj hlength h] at hregisters
  exact hne hregisters

end LedgerQuery.Crc32
