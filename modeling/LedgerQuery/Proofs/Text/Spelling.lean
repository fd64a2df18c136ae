/-
  LedgerQuery.Proofs.Text.Spelling

  Which texts are read as numerals and as hexadecimal digits, and what the others are refused for.
  A number has many numerals, since leading zeros and a plus sign are read over, and bytes have
  many spellings, since digits count in either case; writing a number or bytes again gives the
  spelling without any of that (`Numeral.digits_value`, `Hex.exists_pairs`).
-/
import Mathlib.Data.List.Induction
import LedgerQuery.Proofs.Text.Digits
import LedgerQuery.Proofs.Text.Order

namespace LedgerQuery

/-! ## Decimal numerals -/

namespace Numeral

variable {cs : List Char} {c : Char} {bound n : Nat}

/-- The numerals of a number below a bound: decimal digits, at least one, with any number of zeros
    in front and optionally a plus sign before them. -/
def Spelled (bound n : Nat) (cs : List Char) : Prop :=
  ∃ sign digits : List Char, cs = sign ++ digits ∧ (sign = [] ∨ sign = ['+']) ∧
    (digits ≠ [] ∧ ∀ c ∈ digits, c.isDigit = true) ∧ value digits = n ∧ n < bound

theorem unsigned?_eq_some_iff : unsigned? bound cs = some n ↔
    (cs ≠ [] ∧ ∀ c ∈ cs, c.isDigit = true) ∧ value cs = n ∧ n < bound := by
  unfold unsigned?
  constructor
  · intro h
    split at h
    · rename_i haccepted
      cases h
      exact ⟨⟨haccepted.1, List.all_eq_true.1 haccepted.2.1⟩, rfl, haccepted.2.2⟩
    · cases h
  · rintro ⟨⟨hnonempty, hdigits⟩, rfl, hsmall⟩
    exact if_pos ⟨hnonempty, List.all_eq_true.2 hdigits, hsmall⟩

/-- Exactly the numerals of a number are read as that number. -/
theorem read?_eq_some_iff : read? bound cs = some n ↔ Spelled bound n cs := by
  unfold read?
  split
  · rename_i rest
    rw [unsigned?_eq_some_iff]
    constructor
    · rintro ⟨hdigits, hnumber⟩
      exact ⟨['+'], rest, rfl, .inr rfl, hdigits, hnumber⟩
    · rintro ⟨sign, digits, hparts, rfl | rfl, hdigits, hnumber⟩
      · -- Without a sign the plus would be a digit.
        have hplus : Char.isDigit '+' = true := hdigits.2 '+' (by
          rw [← List.nil_append digits, ← hparts]
          exact List.mem_cons_self)
        exact absurd hplus (by decide)
      · cases hparts
        exact ⟨hdigits, hnumber⟩
  · rename_i hunsigned
    rw [unsigned?_eq_some_iff]
    constructor
    · rintro ⟨hdigits, hnumber⟩
      exact ⟨[], cs, rfl, .inl rfl, hdigits, hnumber⟩
    · rintro ⟨sign, digits, hparts, rfl | rfl, hdigits, hnumber⟩
      · rw [List.nil_append] at hparts
        exact hparts ▸ ⟨hdigits, hnumber⟩
      · exact absurd hparts (hunsigned digits)

/-- The numerals of a 32-bit number. -/
theorem word32?_of_spelled (h : Spelled UInt32.size n cs) : word32? cs = some (UInt32.ofNat n) := by
  rw [word32?, read?_eq_some_iff.2 h]
  rfl

theorem Spelled.colon_not_mem (h : Spelled bound n cs) : ':' ∉ cs := by
  obtain ⟨sign, digits, rfl, hsign, hdigits, -⟩ := h
  intro hcolon
  rcases List.mem_append.1 hcolon with hmem | hmem
  · rcases hsign with rfl | rfl
    · cases hmem
    · exact absurd (List.mem_singleton.1 hmem) (by decide)
  · exact absurd (hdigits.2 _ hmem) (by decide)

/-! ### Writing again -/

/-- Digits without the zeros in front, one zero if nothing else is there. -/
def stripped (cs : List Char) : List Char :=
  match cs.dropWhile (· = '0') with
  | [] => ['0']
  | c :: rest => c :: rest

theorem digitChar_digitValue (h : c.isDigit = true) :
    digitValue c < 10 ∧ (digitValue c).digitChar = c := by
  have hall : ∀ k ∈ List.range 10, k.digitChar.toNat = k + 48 := by decide
  have hrange : 48 ≤ c.toNat ∧ c.toNat ≤ 57 := by
    simpa [Char.isDigit, UInt32.le_iff_toNat_le] using h
  have hsmall : digitValue c < 10 := by
    show c.toNat - 48 < 10
    omega
  refine ⟨hsmall, Char.toNat_inj.1 ?_⟩
  rw [hall _ (List.mem_range.2 hsmall)]
  show c.toNat - 48 + 48 = c.toNat
  omega

theorem value_zero_cons (cs : List Char) : value ('0' :: cs) = value cs := rfl

theorem value_dropWhile_zero (cs : List Char) : value (cs.dropWhile (· = '0')) = value cs := by
  induction cs with
  | nil => rfl
  | cons c rest ih =>
    by_cases hzero : c = '0'
    · rw [List.dropWhile_cons_of_pos (by simpa using hzero), ih, hzero, value_zero_cons]
    · rw [List.dropWhile_cons_of_neg (by simpa using hzero)]

/-- Digits of which the first is not zero are the digits of their value. -/
theorem digits_value_of_head (hdigits : ∀ d ∈ c :: cs, d.isDigit = true) (hne : c ≠ '0') :
    0 < value (c :: cs) ∧ digits (value (c :: cs)) = c :: cs := by
  induction cs using List.reverseRecOn with
  | nil =>
    obtain ⟨hsmall, hsame⟩ := digitChar_digitValue (hdigits c List.mem_cons_self)
    have hwhole : value [c] = digitValue c := by
      simp [value]
    rw [hwhole, digits_of_lt hsmall, hsame]
    refine ⟨Nat.pos_of_ne_zero fun hzero => hne ?_, rfl⟩
    rw [← hsame, hzero]
    rfl
  | append_singleton init d ih =>
    -- The last digit is the remainder, those before it the quotient.
    obtain ⟨hpositive, hbefore⟩ := ih fun e he => hdigits e (by
      rw [← List.cons_append]
      exact List.mem_append_left _ he)
    obtain ⟨hsmall, hsame⟩ := digitChar_digitValue (hdigits d (by simp))
    have hquotient : (value (c :: init) * 10 + digitValue d) / 10 = value (c :: init) := by omega
    have hrest : (value (c :: init) * 10 + digitValue d) % 10 = digitValue d := by omega
    rw [← List.cons_append, value_append_singleton, digits_of_le (by omega), hquotient, hrest,
      hbefore, hsame]
    exact ⟨by omega, rfl⟩

/-- The digits of a number that digits stand for are these without the zeros in front. -/
theorem digits_value (hdigits : ∀ c ∈ cs, c.isDigit = true) : digits (value cs) = stripped cs := by
  rw [stripped, ← value_dropWhile_zero]
  cases hrest : cs.dropWhile (· = '0') with
  | nil => rfl
  | cons c rest =>
    have hne : c ≠ '0' := by
      have hhead := List.head?_dropWhile_not (· = '0') cs
      rw [hrest] at hhead
      simpa using hhead
    refine (digits_value_of_head (fun d hd => hdigits d ?_) hne).2
    exact (List.dropWhile_sublist _).subset (hrest ▸ hd)

end Numeral

/-! ## ASCII text -/

namespace Utf8

theorem encode_inj {s t : String} : encode s = encode t ↔ s = t := by
  constructor
  · intro h
    have hread := congrArg decode? h
    rw [decode?_encode, decode?_encode] at hread
    exact Option.some.inj hread
  · rintro rfl
    rfl

theorem toNat_ofNat {n : Nat} (h : n < 256) : (Char.ofNat n).toNat = n := by
  have hvalid : n.isValidChar := .inl (by omega)
  unfold Char.ofNat
  rw [dif_pos hvalid]
  rfl

/-- A text of which every byte is ASCII has one character for each. -/
theorem toList_of_ascii {text : String} (h : ∀ b ∈ encode text, b.toNat < 128) :
    text.toList = (encode text).map fun b => Char.ofNat b.toNat := by
  have hchar : ∀ b ∈ encode text, (Char.ofNat b.toNat).toNat = b.toNat := fun b _ =>
    toNat_ofNat b.toNat_lt
  have hascii : ∀ c ∈ (encode text).map fun b => Char.ofNat b.toNat, c.toNat < 128 := by
    intro c hc
    obtain ⟨b, hb, rfl⟩ := List.mem_map.1 hc
    rw [hchar b hb]
    exact h b hb
  have hback : encode (String.ofList ((encode text).map fun b => Char.ofNat b.toNat)) =
      encode text := by
    rw [encode_ascii hascii, List.map_map]
    refine (List.map_congr_left fun b hb => ?_).trans (List.map_id _)
    show UInt8.ofNat (Char.ofNat b.toNat).toNat = b
    rw [hchar b hb, UInt8.ofNat_toNat]
  rw [← encode_inj.1 hback, String.toList_ofList, encode_inj.1 hback]

end Utf8

/-! ## Hexadecimal digits -/

namespace Hex

variable {cs : List Char}

/-- The digits in either case. -/
def eitherCase : List Char := "0123456789abcdefABCDEF".toList

/-- Whether a byte is the code of a digit. -/
def IsDigit (b : UInt8) : Prop := Char.ofNat b.toNat ∈ eitherCase

/-- A digit has a value, that of the digit in lower case. -/
theorem digitValue?_of_mem {c : Char} (h : c ∈ eitherCase) :
    c.toNat < 128 ∧ ∃ v < 16, digitValue? (UInt8.ofNat c.toNat) = some v ∧ digit v = c.toLower := by
  have hall : eitherCase.all (fun c => decide (c.toNat < 128 ∧ ∃ v : Nat, v < 16 ∧
      digitValue? (UInt8.ofNat c.toNat) = some v ∧ digit v = c.toLower)) = true := by decide
  exact of_decide_eq_true (List.all_eq_true.1 hall c h)

theorem toLower_mem_eitherCase {c : Char} (h : c ∈ eitherCase) : c.toLower ∈ eitherCase := by
  have hall : eitherCase.all (fun c => decide (c.toLower ∈ eitherCase)) = true := by decide
  exact of_decide_eq_true (List.all_eq_true.1 hall c h)

/-- What has a value is a digit. -/
theorem isDigit_of_digitValue? {b : UInt8} {v : Nat} (h : digitValue? b = some v) : IsDigit b := by
  have hcodes : eitherCase.map Char.toNat =
      List.range' 48 10 ++ List.range' 97 6 ++ List.range' 65 6 := by decide
  have hmem : b.toNat ∈ eitherCase.map Char.toNat := by
    rw [hcodes, List.mem_append, List.mem_append, List.mem_range'_1, List.mem_range'_1,
      List.mem_range'_1]
    unfold digitValue? at h
    dsimp only at h
    split at h
    · omega
    · split at h
      · omega
      · split at h
        · omega
        · cases h
  obtain ⟨c, hc, hcode⟩ := List.mem_map.1 hmem
  rwa [IsDigit, ← hcode, Char.ofNat_toNat]

/-- A digit is ASCII and has a value. -/
theorem IsDigit.value {b : UInt8} (h : IsDigit b) :
    b.toNat < 128 ∧ ∃ v, digitValue? b = some v := by
  have hcode : (Char.ofNat b.toNat).toNat = b.toNat := Utf8.toNat_ofNat b.toNat_lt
  obtain ⟨hsmall, v, -, hvalue, -⟩ := digitValue?_of_mem h
  rw [hcode] at hsmall hvalue
  exact ⟨hsmall, v, UInt8.ofNat_toNat (x := b) ▸ hvalue⟩

theorem digitValue?_of_not_isDigit {b : UInt8} (h : ¬ IsDigit b) : digitValue? b = none := by
  cases hvalue : digitValue? b with
  | none => rfl
  | some v => exact absurd (isDigit_of_digitValue? hvalue) h

/-- The bytes that digits stand for are written with the same digits in lower case. -/
theorem exists_pairs : ∀ (cs : List Char) (position : Nat), (∀ c ∈ cs, c ∈ eitherCase) →
    cs.length % 2 = 0 → ∃ bytes, pairs position (cs.map fun c => UInt8.ofNat c.toNat) = .ok bytes ∧
      digits bytes = cs.map Char.toLower
  | [], _, _, _ => ⟨[], rfl, rfl⟩
  | [_], _, _, heven => by cases heven
  | high :: low :: rest, position, hdigits, heven => by
    obtain ⟨hhigh, hdigits⟩ := List.forall_mem_cons.1 hdigits
    obtain ⟨hlow, hdigits⟩ := List.forall_mem_cons.1 hdigits
    obtain ⟨-, h, hsmall, hvalue, hdigit⟩ := digitValue?_of_mem hhigh
    obtain ⟨-, l, hlsmall, hlvalue, hldigit⟩ := digitValue?_of_mem hlow
    have hrest : rest.length % 2 = 0 := by
      simp only [List.length_cons] at heven
      omega
    obtain ⟨bytes, hread, hwritten⟩ := exists_pairs rest (position + 2) hdigits hrest
    -- Either half of the byte is the value of its digit.
    have hsize : (UInt8.ofNat (16 * h + l)).toNat = 16 * h + l :=
      UInt8.toNat_ofNat_of_lt' (by show _ < 256; omega)
    have hfirst : (16 * h + l) / 16 = h := by omega
    have hsecond : (16 * h + l) % 16 = l := by omega
    refine ⟨UInt8.ofNat (16 * h + l) :: bytes, ?_, ?_⟩
    · simp only [List.map_cons, pairs, hvalue, hlvalue, hread]
      rfl
    · rw [digits, List.flatMap_cons, pair, hsize, hfirst, hsecond, hdigit, hldigit]
      show [high.toLower, low.toLower] ++ digits bytes = _
      rw [hwritten]
      rfl

/-- Reading stops at the first byte that is no digit. -/
theorem pairs_eq_error {b : UInt8} : ∀ (before after : Bytes) (position : Nat),
    (∀ d ∈ before, IsDigit d) → ¬ IsDigit b → (before ++ b :: after).length % 2 = 0 →
    pairs position (before ++ b :: after) = .error (.invalidDigit b (position + before.length))
  | [], [], _, _, _, heven => by cases heven
  | [], _ :: _, position, _, hfault, _ => by
    simp only [List.nil_append, pairs, digitValue?_of_not_isDigit hfault]
    rfl
  | [high], after, position, hdigits, hfault, _ => by
    obtain ⟨-, h, hvalue⟩ := (hdigits high List.mem_cons_self).value
    simp only [List.cons_append, List.nil_append, pairs, hvalue, digitValue?_of_not_isDigit hfault]
    rfl
  | high :: low :: before, after, position, hdigits, hfault, heven => by
    obtain ⟨hhigh, hdigits⟩ := List.forall_mem_cons.1 hdigits
    obtain ⟨hlow, hdigits⟩ := List.forall_mem_cons.1 hdigits
    obtain ⟨-, h, hvalue⟩ := hhigh.value
    obtain ⟨-, l, hlvalue⟩ := hlow.value
    have hrest : (before ++ b :: after).length % 2 = 0 := by
      simp only [List.cons_append, List.length_cons] at heven
      omega
    have hlater := pairs_eq_error before after (position + 2) hdigits hfault hrest
    have hcount : position + 2 + before.length = position + (high :: low :: before).length := by
      simp only [List.length_cons]
      omega
    simp only [List.cons_append, pairs, hvalue, hlvalue, hlater, hcount]
    rfl

/-- Bytes are digits up to the end or up to a first one that is not. -/
theorem digits_or_fault (bytes : Bytes) : (∀ b ∈ bytes, IsDigit b) ∨
    ∃ before b after, bytes = before ++ b :: after ∧ (∀ d ∈ before, IsDigit d) ∧ ¬ IsDigit b := by
  induction bytes with
  | nil => exact .inl nofun
  | cons b rest ih =>
    by_cases hdigit : IsDigit b
    · rcases ih with hall | ⟨before, c, after, rfl, hbefore, hfault⟩
      · exact .inl (List.forall_mem_cons.2 ⟨hdigit, hall⟩)
      · exact .inr ⟨b :: before, c, after, rfl, List.forall_mem_cons.2 ⟨hdigit, hbefore⟩, hfault⟩
    · exact .inr ⟨[], b, rest, rfl, nofun, hdigit⟩

/-! ### Texts -/

variable {text : String}

/-- A text of digits is read as the bytes that they stand for, one for every two digits. -/
theorem decode_ofList (hdigits : ∀ c ∈ cs, c ∈ eitherCase) (heven : cs.length % 2 = 0) :
    ∃ bytes, decode (String.ofList cs) = .ok bytes ∧ digits bytes = cs.map Char.toLower ∧
      2 * bytes.length = cs.length := by
  have hbytes := Utf8.encode_ascii fun c hc => (digitValue?_of_mem (hdigits c hc)).1
  obtain ⟨bytes, hread, hwritten⟩ := exists_pairs cs 0 hdigits heven
  have hlength : 2 * bytes.length = cs.length := by
    rw [← length_digits, hwritten, List.length_map]
  refine ⟨bytes, ?_, hwritten, hlength⟩
  rw [decode, hbytes, ← hread]
  exact if_neg (by rw [List.length_map, heven]; decide)

theorem decode_of_odd (h : (Utf8.encode text).length % 2 = 1) :
    decode text = .error .oddLength := by
  rw [decode]
  exact if_pos (by rw [h]; decide)

theorem decode_of_fault {before after : Bytes} {b : UInt8}
    (hparts : Utf8.encode text = before ++ b :: after) (heven : (Utf8.encode text).length % 2 = 0)
    (hbefore : ∀ d ∈ before, IsDigit d) (hfault : ¬ IsDigit b) :
    decode text = .error (.invalidDigit b before.length) := by
  rw [decode, if_neg (by rw [heven]; decide), hparts,
    pairs_eq_error before after 0 hbefore hfault (hparts ▸ heven), Nat.zero_add]

/-- If all bytes of a text are digits, so are its characters, one for each byte. -/
theorem toList_of_isDigit (h : ∀ b ∈ Utf8.encode text, IsDigit b) :
    (∀ c ∈ text.toList, c ∈ eitherCase) ∧ (Utf8.encode text).length = text.toList.length := by
  rw [Utf8.toList_of_ascii fun b hb => (h b hb).value.1]
  refine ⟨fun c hc => ?_, (List.length_map _).symm⟩
  obtain ⟨b, hb, rfl⟩ := List.mem_map.1 hc
  exact h b hb

end Hex

end LedgerQuery
