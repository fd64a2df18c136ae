/-
  LedgerQuery.Proofs.Text.Order

  What becomes of an order when values are compared by their texts. Hexadecimal digits keep the
  order of the bytes (`Hex.compare_digits`). Decimal numerals do not keep the order of the numbers:
  a numeral is compared with as many leading digits of a longer one, and the length counts only if
  these agree (`Numeral.compare_digits`). So the order is turned round for the numbers that are
  `Crossed`, and for no others (`Numeral.compare_render`).
-/
import LedgerQuery.Order
import LedgerQuery.Proofs.Text.Digits

namespace LedgerQuery

open Std

/-! ## Texts as lists of characters -/

theorem compare_chars (xs ys : List Char) : compare xs ys = compareOfLessAndEq xs ys := by
  induction xs generalizing ys with
  | nil => cases ys <;> simp [compareOfLessAndEq]
  | cons x xs ih =>
    cases ys with
    | nil => simp [compareOfLessAndEq]
    | cons y ys =>
      have htail := ih ys
      rw [List.compare_eq_compareLex] at htail ⊢
      rw [List.compareLex_cons_cons, htail]
      have hhead : compare x y = compareOfLessAndEq x y := rfl
      rw [hhead]
      -- The heads decide unless they are the same.
      unfold compareOfLessAndEq
      simp only [List.cons_lt_cons_iff, List.cons.injEq]
      by_cases hlt : x < y
      · simp [hlt]
      · by_cases heq : x = y
        · simp [heq]
        · simp [hlt, heq]

/-- Texts are ordered by their characters, from the first on. -/
theorem compare_eq_compare_toList (s t : String) : compare s t = compare s.toList t.toList := by
  have htexts : compare s t = compareOfLessAndEq s t := rfl
  rw [htexts, compare_chars]
  simp only [compareOfLessAndEq, String.lt_iff, String.toList_inj]

/-- Of two lists the fronts of one length are compared first. -/
theorem compare_append {α : Type} [Ord α] {front front' back back' : List α}
    (h : front.length = front'.length) :
    compare (front ++ back) (front' ++ back') =
      (compare front front').then (compare back back') := by
  simp only [List.compare_eq_compareLex]
  induction front generalizing front' with
  | nil =>
    rw [List.length_eq_zero_iff.1 h.symm]
    rfl
  | cons x front ih =>
    obtain ⟨y, rest, rfl⟩ := List.exists_cons_of_length_eq_add_one h.symm
    have hrest : front.length = rest.length := Nat.succ.inj h
    rw [List.cons_append, List.cons_append, List.compareLex_cons_cons, List.compareLex_cons_cons,
      ih hrest, Ordering.then_assoc]

/-- Numbers are ordered by their quotients, and then by what is left. -/
theorem compare_div_then_mod (m n base : Nat) :
    compare m n = (compare (m / base) (n / base)).then (compare (m % base) (n % base)) := by
  have hm := Nat.div_add_mod m base
  have hn := Nat.div_add_mod n base
  rcases Nat.lt_trichotomy (m / base) (n / base) with hlt | heq | hgt
  · rw [Nat.compare_eq_lt.2 hlt, Nat.compare_eq_lt.2 (Nat.lt_of_div_lt_div hlt)]
    rfl
  · rw [heq] at hm ⊢
    rw [compare_self, Ordering.eq_then]
    rcases Nat.lt_trichotomy (m % base) (n % base) with hlt | hsame | hgt
    · rw [Nat.compare_eq_lt.2 hlt, Nat.compare_eq_lt.2 (by omega)]
    · rw [hsame, compare_self, Nat.compare_eq_eq.2 (by omega)]
    · rw [Nat.compare_eq_gt.2 hgt, Nat.compare_eq_gt.2 (by omega)]
  · rw [Nat.compare_eq_gt.2 hgt, Nat.compare_eq_gt.2 (Nat.lt_of_div_lt_div hgt)]
    rfl

/-! ## Hexadecimal digits -/

namespace Hex

theorem compare_digit {m n : Nat} (hm : m < 16) (hn : n < 16) :
    compare (digit m) (digit n) = compare m n := by
  have hall : ∀ m ∈ List.range 16, ∀ n ∈ List.range 16,
      compare (digit m) (digit n) = compare m n := by decide
  exact hall m (List.mem_range.2 hm) n (List.mem_range.2 hn)

/-- The two digits of a byte keep its place. -/
theorem compare_pair (a b : UInt8) : compare (pair a) (pair b) = compare a b := by
  have ha : a.toNat < 256 := a.toNat_lt_size
  have hb : b.toNat < 256 := b.toNat_lt_size
  have hhigh := compare_digit (m := a.toNat / 16) (n := b.toNat / 16) (by omega) (by omega)
  have hlow := compare_digit (m := a.toNat % 16) (n := b.toNat % 16) (by omega) (by omega)
  rw [compare_eq_compare_map UInt8.toNat UInt8.lt_iff_toNat_lt, compare_div_then_mod _ _ 16,
    ← hhigh, ← hlow, List.compare_eq_compareLex, pair, pair, List.compareLex_cons_cons,
    List.compareLex_cons_cons, List.compareLex_nil_nil, Ordering.then_eq]

/-- Byte strings are ordered as their digits are. -/
theorem compare_digits (xs ys : Bytes) : compare (digits xs) (digits ys) = compare xs ys := by
  induction xs generalizing ys with
  | nil =>
    cases ys with
    | nil => rfl
    | cons y ys => rfl
  | cons x xs ih =>
    cases ys with
    | nil => rfl
    | cons y ys =>
      have hfront : digits (x :: xs) = pair x ++ digits xs := List.flatMap_cons
      have hfront' : digits (y :: ys) = pair y ++ digits ys := List.flatMap_cons
      have hwidth : (pair x).length = (pair y).length := rfl
      rw [hfront, hfront', compare_append hwidth, compare_pair, ih]
      simp only [List.compare_eq_compareLex, List.compareLex_cons_cons]

end Hex

/-! ## Decimal numerals -/

namespace Numeral

variable {i j : Nat}

theorem digits_of_lt (h : i < 10) : digits i = [i.digitChar] := Nat.toDigits_of_lt_base h

theorem digits_of_le (h : 10 ≤ i) : digits i = digits (i / 10) ++ [(i % 10).digitChar] :=
  Nat.toDigits_of_base_le (by decide) h

theorem length_digits_pos (i : Nat) : 0 < (digits i).length := Nat.length_toDigits_pos

theorem length_digits_le_iff {length : Nat} (h : 0 < length) :
    (digits i).length ≤ length ↔ i < Nat.pow 10 length :=
  Nat.length_toDigits_le_iff (by decide) h

/-- A greater number has no fewer digits. -/
theorem length_digits_mono (h : i ≤ j) : (digits i).length ≤ (digits j).length := by
  have hlength := length_digits_pos j
  exact (length_digits_le_iff hlength).2
    (Nat.lt_of_le_of_lt h ((length_digits_le_iff hlength).1 (Nat.le_refl _)))

/-- Numerals of one digit are ordered as the numbers are. -/
theorem compare_digitChar {m n : Nat} (hm : m < 10) (hn : n < 10) :
    compare [m.digitChar] [n.digitChar] = compare m n := by
  have hall : ∀ m ∈ List.range 10, ∀ n ∈ List.range 10,
      compare [m.digitChar] [n.digitChar] = compare m n := by decide
  exact hall m (List.mem_range.2 hm) n (List.mem_range.2 hn)

/-- Numerals of one length are ordered as the numbers are. -/
theorem compare_digits_of_length_eq (h : (digits i).length = (digits j).length) :
    compare (digits i) (digits j) = compare i j := by
  -- Along the digits, the last one first: what is left of the numerals has one length as well.
  induction i using Nat.strongRecOn generalizing j with
  | ind i ih =>
    have hshort : i < 10 ↔ j < 10 :=
      (length_digits_le_iff (i := i) Nat.one_pos).symm.trans (h ▸ length_digits_le_iff Nat.one_pos)
    rcases Nat.lt_or_ge i 10 with hi | hi
    · rw [digits_of_lt hi, digits_of_lt (hshort.1 hi), compare_digitChar hi (hshort.1 hi)]
    · have hj : 10 ≤ j := Nat.le_of_not_lt fun hj => Nat.not_lt_of_le hi (hshort.2 hj)
      have hlast := compare_digitChar (m := i % 10) (n := j % 10) (Nat.mod_lt _ (by decide))
        (Nat.mod_lt _ (by decide))
      rw [digits_of_le hi, digits_of_le hj, List.length_append, List.length_append] at h
      have hfront : (digits (i / 10)).length = (digits (j / 10)).length := Nat.add_right_cancel h
      rw [digits_of_le hi, digits_of_le hj, compare_append hfront, ih (i / 10) (by omega) hfront,
        hlast, ← compare_div_then_mod]

/-- Leaving out the last digits of a numeral leaves that of a quotient. -/
theorem digits_eq_append {count : Nat} (h : count < (digits i).length) :
    ∃ last, last.length = count ∧ digits i = digits (i / Nat.pow 10 count) ++ last := by
  induction count with
  | zero => exact ⟨[], rfl, by rw [List.append_nil]; exact congrArg digits (Nat.div_one i).symm⟩
  | succ count ih =>
    obtain ⟨last, hlast, hdigits⟩ := ih (Nat.lt_of_succ_lt h)
    -- The quotient has two digits at least, of which the last is split off.
    have hlong : 1 < (digits (i / Nat.pow 10 count)).length := by
      rw [hdigits, List.length_append, hlast] at h
      omega
    have hge : 10 ≤ i / Nat.pow 10 count :=
      Nat.le_of_not_lt fun hlt => Nat.not_le_of_lt hlong ((length_digits_le_iff Nat.one_pos).2 hlt)
    refine ⟨((i / Nat.pow 10 count) % 10).digitChar :: last, by rw [List.length_cons, hlast], ?_⟩
    rw [hdigits, digits_of_le hge, Nat.div_div_eq_div_mul, List.append_assoc]
    rfl

/-- What the first digits of a numeral spell, as many of them as another numeral has. -/
def leading (j i : Nat) : Nat := j / Nat.pow 10 ((digits j).length - (digits i).length)

/-- A numeral is compared with as many digits of a longer one. -/
theorem compare_digits (h : (digits i).length ≤ (digits j).length) :
    compare (digits i) (digits j) =
      (compare i (leading j i)).then (compare (digits i).length (digits j).length) := by
  have hpositive := length_digits_pos i
  have hfewer : (digits j).length - (digits i).length < (digits j).length := by omega
  obtain ⟨last, hlast, hdigits⟩ := digits_eq_append hfewer
  have hfront : (digits i).length = (digits (leading j i)).length := by
    have hwhole := congrArg List.length hdigits
    rw [List.length_append, hlast] at hwhole
    unfold leading
    omega
  have hback : compare [] last = compare (digits i).length (digits j).length := by
    cases last with
    | nil =>
      rw [List.length_nil] at hlast
      rw [Nat.compare_eq_eq.2 (by omega)]
      rfl
    | cons c last =>
      rw [List.length_cons] at hlast
      rw [Nat.compare_eq_lt.2 (by omega)]
      rfl
  calc compare (digits i) (digits j)
    _ = compare (digits i ++ []) (digits (leading j i) ++ last) := by
      rw [List.append_nil]
      exact congrArg (compare (digits i)) hdigits
    _ = (compare i (leading j i)).then (compare (digits i).length (digits j).length) := by
      rw [compare_append hfront, compare_digits_of_length_eq hfront, hback]

/-- The smaller of two numbers is above the leading digits of the greater one. -/
def Crossed (i j : Nat) : Prop := (i < j ∧ leading j i < i) ∨ (j < i ∧ leading i j < j)

instance : Decidable (Crossed i j) := inferInstanceAs (Decidable (_ ∨ _))

theorem Crossed.symm (h : Crossed i j) : Crossed j i := Or.symm h

theorem compare_render_of_lt (h : i < j) :
    compare (render i) (render j) = if Crossed i j then .gt else .lt := by
  have hlength := length_digits_mono (Nat.le_of_lt h)
  have hcrossed : Crossed i j ↔ leading j i < i := by
    constructor
    · rintro (⟨-, habove⟩ | ⟨hgreater, -⟩)
      · exact habove
      · exact absurd hgreater (Nat.lt_asymm h)
    · exact fun habove => .inl ⟨h, habove⟩
  rw [compare_eq_compare_toList, render, render, String.toList_ofList, String.toList_ofList,
    compare_digits hlength]
  rcases Nat.lt_trichotomy i (leading j i) with hlt | heq | hgt
  · rw [Nat.compare_eq_lt.2 hlt, if_neg (mt hcrossed.1 (Nat.lt_asymm hlt))]
    rfl
  · -- The digits agree as far as the shorter numeral goes, so the other one is longer.
    have hlonger : (digits i).length < (digits j).length := by
      refine Nat.lt_of_le_of_ne hlength fun hsame => ?_
      rw [leading, hsame, Nat.sub_self] at heq
      exact Nat.ne_of_lt h (heq.trans (Nat.div_one j))
    rw [Nat.compare_eq_eq.2 heq, Nat.compare_eq_lt.2 hlonger,
      if_neg (mt hcrossed.1 (Nat.not_lt_of_le (Nat.le_of_eq heq)))]
    rfl
  · rw [Nat.compare_eq_gt.2 hgt, if_pos (hcrossed.2 hgt)]
    rfl

/-- Numerals are ordered as the numbers are, except that numbers which are crossed stand the other
    way round. -/
theorem compare_render (i j : Nat) :
    compare (render i) (render j) = if Crossed i j then (compare i j).swap else compare i j := by
  rcases Nat.lt_trichotomy i j with hlt | rfl | hgt
  · rw [compare_render_of_lt hlt, Nat.compare_eq_lt.2 hlt]
    rfl
  · rw [compare_self, compare_self]
    split <;> rfl
  · have hcrossed : Crossed i j ↔ Crossed j i := ⟨Crossed.symm, Crossed.symm⟩
    have hswapped : compare (render i) (render j) = (compare (render j) (render i)).swap :=
      OrientedCmp.eq_swap
    rw [hswapped, compare_render_of_lt hgt, Nat.compare_eq_gt.2 hgt]
    simp only [hcrossed]
    split <;> rfl

end Numeral

end LedgerQuery
