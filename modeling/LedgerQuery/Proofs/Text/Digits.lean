/-
  LedgerQuery.Proofs.Text.Digits

  Numerals and hexadecimal digits stand for what they were written from. All of them are ASCII,
  so that a reader of bytes and a reader of characters see the same digits.
-/
import LedgerQuery.Text.Hex

namespace LedgerQuery

/-! ## Decimal numerals -/

namespace Numeral

theorem value_eq_ofDigitChars (cs : List Char) : value cs = Nat.ofDigitChars 10 cs 0 := by
  simp [value, digitValue, Nat.ofDigitChars, Nat.mul_comm]

theorem value_append_singleton (cs : List Char) (c : Char) :
    value (cs ++ [c]) = value cs * 10 + digitValue c := by
  simp [value]

theorem digits_ne_nil (n : Nat) : digits n ≠ [] := Nat.toDigits_ne_nil

theorem isDigit_of_mem_digits {n : Nat} {c : Char} (h : c ∈ digits n) : c.isDigit = true :=
  Nat.isDigit_of_mem_toDigits (by decide) (by decide) h

@[simp] theorem value_digits (n : Nat) : value (digits n) = n := by
  rw [value_eq_ofDigitChars, digits, Nat.ofDigitChars_ten_toDigits]

/-- The numeral of a positive number starts with another digit than zero. -/
theorem head?_digits_ne_zero {n : Nat} (h : 0 < n) : (digits n).head? ≠ some '0' := by
  induction n using Nat.strongRecOn with
  | ind n ih =>
    rw [digits, Nat.toDigits_eq_if (by decide)]
    split
    · simp only [List.head?_cons, ne_eq, Option.some.injEq, Nat.digitChar_eq_zero]
      omega
    · -- The first digit is that of a tenth of the number, which is positive too.
      rw [List.head?_append]
      have hearlier : (digits (n / 10)).head? ≠ some '0' := ih (n / 10) (by omega) (by omega)
      rw [digits] at hearlier
      cases hfirst : (Nat.toDigits 10 (n / 10)).head? with
      | none => exact absurd (List.head?_eq_none_iff.1 hfirst) Nat.toDigits_ne_nil
      | some c => simpa [hfirst] using hearlier

/-- Only the numeral of zero starts with a zero, and that is one digit long. -/
theorem not_leadingZero (n : Nat) :
    ¬ ((digits n).head? = some '0' ∧ 1 < (digits n).length) := by
  rintro ⟨hhead, hlong⟩
  cases Nat.eq_zero_or_pos n with
  | inl hzero => simp [hzero, digits] at hlong
  | inr hpositive => exact head?_digits_ne_zero hpositive hhead

theorem unsigned?_digits {bound n : Nat} (h : n < bound) : unsigned? bound (digits n) = some n := by
  have hallDigits : (digits n).all Char.isDigit = true :=
    List.all_eq_true.2 fun c hc => isDigit_of_mem_digits hc
  rw [unsigned?, value_digits, if_pos ⟨digits_ne_nil n, hallDigits, h⟩]

/-- A numeral is read as its number, since it starts with no sign. -/
theorem read?_digits {bound n : Nat} (h : n < bound) : read? bound (digits n) = some n := by
  unfold read?
  split
  · rename_i rest hplus
    have : '+' ∈ digits n := by rw [hplus]; exact List.mem_cons_self
    exact absurd (isDigit_of_mem_digits this) (by decide)
  · exact unsigned?_digits h

@[simp] theorem word32?_digits (n : UInt32) : word32? (digits n.toNat) = some n := by
  rw [word32?, read?_digits n.toNat_lt_size, Option.map_some, UInt32.ofNat_toNat]

/-! ## Digits of a fixed number -/

theorem isDigit_digitChar {n : Nat} (h : n < 10) : n.digitChar.isDigit = true := by
  simpa using h

theorem digitValue_digitChar {n : Nat} (h : n < 10) : digitValue n.digitChar = n :=
  Nat.toNat_digitChar_sub_48_of_lt_ten h

theorem lt_of_mem_places {base width n d : Nat} (hpositive : 0 < base)
    (h : d ∈ places base width n) : d < base := by
  induction width generalizing n with
  | zero => cases h
  | succ width ih =>
    rw [places, List.mem_append, List.mem_singleton] at h
    cases h with
    | inl hbefore => exact ih hbefore
    | inr hlast => exact hlast ▸ Nat.mod_lt n hpositive

theorem isDigit_of_mem_places {width n : Nat} {c : Char}
    (h : c ∈ (places 10 width n).map Nat.digitChar) : c.isDigit = true := by
  obtain ⟨d, hd, rfl⟩ := List.mem_map.1 h
  exact isDigit_digitChar (lt_of_mem_places (by decide) hd)

theorem value_places (width n : Nat) :
    value ((places 10 width n).map Nat.digitChar) = n % Nat.pow 10 width := by
  induction width generalizing n with
  | zero => exact (Nat.mod_one n).symm
  | succ width ih =>
    -- The last place is the remainder, those before it are the places of the quotient.
    have hlast : digitValue (n % 10).digitChar = n % 10 :=
      digitValue_digitChar (Nat.mod_lt n (by decide))
    have hpower : Nat.pow 10 (width + 1) = 10 * Nat.pow 10 width := Nat.mul_comm _ _
    rw [places, List.map_append, List.map_singleton, value_append_singleton, ih, hlast, hpower,
      Nat.mod_mul]
    omega

end Numeral

/-! ## ASCII text -/

namespace Utf8

theorem utf8EncodeChar_ascii {c : Char} (h : c.toNat < 128) :
    String.utf8EncodeChar c = [UInt8.ofNat c.toNat] := by
  have hsmall : c.val ≤ 127 := UInt32.le_iff_toNat_le.2 (by simpa using Nat.lt_succ_iff.1 h)
  rw [String.utf8EncodeChar_eq_singleton (Char.utf8Size_eq_one_iff.2 hsmall)]
  rfl

/-- Text in ASCII takes one byte a character. -/
theorem encode_ascii {cs : List Char} (h : ∀ c ∈ cs, c.toNat < 128) :
    encode (String.ofList cs) = cs.map fun c => UInt8.ofNat c.toNat := by
  have hbytes : cs.flatMap String.utf8EncodeChar = cs.map fun c => UInt8.ofNat c.toNat := by
    induction cs with
    | nil => rfl
    | cons c cs ih =>
      have ⟨hfirst, hrest⟩ := List.forall_mem_cons.1 h
      rw [List.flatMap_cons, List.map_cons, utf8EncodeChar_ascii hfirst, ih hrest,
        List.singleton_append]
  rw [encode, String.toUTF8, String.toByteArray_ofList, List.utf8Encode, hbytes]
  simp

end Utf8

/-! ## Hexadecimal digits -/

namespace Hex

theorem toNat_digit_lt {n : Nat} (h : n < 16) : (digit n).toNat < 128 := by
  have hall : ∀ k ∈ List.range 16, (digit k).toNat < 128 := by decide
  exact hall n (List.mem_range.2 h)

theorem digitValue?_digit {n : Nat} (h : n < 16) :
    digitValue? (UInt8.ofNat (digit n).toNat) = some n := by
  have hall : ∀ k ∈ List.range 16, digitValue? (UInt8.ofNat (digit k).toNat) = some k := by decide
  exact hall n (List.mem_range.2 h)

/-- Both halves of a byte are below sixteen. -/
theorem exists_of_mem_digits {bytes : Bytes} {c : Char} (h : c ∈ digits bytes) :
    ∃ n < 16, c = digit n := by
  obtain ⟨b, -, hc⟩ := List.mem_flatMap.1 h
  have hsize : b.toNat < 256 := b.toNat_lt_size
  simp only [pair, List.mem_cons, List.not_mem_nil, or_false] at hc
  cases hc with
  | inl hhigh => exact ⟨b.toNat / 16, by omega, hhigh⟩
  | inr hlow => exact ⟨b.toNat % 16, by omega, hlow⟩

theorem toNat_lt_of_mem_digits {bytes : Bytes} {c : Char} (h : c ∈ digits bytes) :
    c.toNat < 128 := by
  obtain ⟨n, hsmall, rfl⟩ := exists_of_mem_digits h
  exact toNat_digit_lt hsmall

theorem pairs_digits (position : Nat) (bytes : Bytes) :
    pairs position ((digits bytes).map fun c => UInt8.ofNat c.toNat) = .ok bytes := by
  induction bytes generalizing position with
  | nil => rfl
  | cons b rest ih =>
    have hsize : b.toNat < 256 := b.toNat_lt_size
    have hhigh : digitValue? (UInt8.ofNat (digit (b.toNat / 16)).toNat) = some (b.toNat / 16) :=
      digitValue?_digit (by omega)
    have hlow : digitValue? (UInt8.ofNat (digit (b.toNat % 16)).toNat) = some (b.toNat % 16) :=
      digitValue?_digit (by omega)
    have hwhole : 16 * (b.toNat / 16) + b.toNat % 16 = b.toNat := by omega
    rw [digits] at ih
    simp [digits, pair, pairs, hhigh, hlow, ih, hwhole, Except.map]

theorem length_digits (bytes : Bytes) : (digits bytes).length = 2 * bytes.length := by
  induction bytes with
  | nil => rfl
  | cons b rest ih =>
    rw [digits] at ih
    simp only [digits, pair, List.flatMap_cons, List.length_append, List.length_cons,
      List.length_nil, ih]
    omega

/-- Bytes written in hexadecimal are read back. -/
@[simp] theorem decode_encode (bytes : Bytes) : decode (encode bytes) = .ok bytes := by
  have htext : Utf8.encode (encode bytes) = (digits bytes).map fun c => UInt8.ofNat c.toNat :=
    Utf8.encode_ascii fun c hc => toNat_lt_of_mem_digits hc
  have heven : ¬ ((digits bytes).map fun c => UInt8.ofNat c.toNat).length % 2 ≠ 0 := by
    rw [List.length_map, length_digits]
    omega
  simp only [decode, htext]
  rw [if_neg heven, pairs_digits]

end Hex

end LedgerQuery
