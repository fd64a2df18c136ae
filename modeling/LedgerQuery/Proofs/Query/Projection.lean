/-
  LedgerQuery.Proofs.Query.Projection

  How far comparisons tell stored values apart. A value reaches a comparison in two ways: an
  operand is projected, while a payload field is written as JSON, looked up by its name and read.
  Both ways end at one scalar, so what remains is whether the scalar still determines the value.
  It does for every type with a projection of its own but one: integers above the signed 64-bit
  ones become doubles, which hold only multiples of 2048 there (`equals_ofInt`).
-/
import LedgerQuery.Proofs.Number.Whole
import LedgerQuery.Proofs.Query.Predicate
import LedgerQuery.Proofs.Query.Sorting
import LedgerQuery.Proofs.Record.Reference

namespace LedgerQuery

/-! ## Equality of scalars -/

namespace Scalar

/-- Within a kind, numbers are equal if their values are, and texts if they are the same. -/
theorem equals_iff {a b : Scalar} (hrank : a.rank = b.rank) (ha : a.isNaN = false)
    (hb : b.isNaN = false) : equals false a b = true ↔ a.value = b.value ∧ a.text? = b.text? := by
  rw [equals, decide_eq_true_iff, compare?_of_rank_eq hrank, ha, hb, Bool.or_self,
    if_neg Bool.false_ne_true, Option.some_inj, Ordering.then_eq_eq, Int.compare_eq_eq,
    Std.compare_eq_iff_eq]

theorem equals_bool {a b : Bool} : equals false (.bool a) (.bool b) = true ↔ a = b := by
  cases a <;> cases b <;> decide

theorem equals_text {s t : String} : equals false (.text s) (.text t) = true ↔ s = t := by
  rw [equals_iff (a := .text s) (b := .text t) rfl rfl rfl]
  simp [value, text?]

/-! ## Equality of integers -/

/-- The number that an integer is compared as: itself if 64 signed bits hold it, and above them
    the nearest multiple of 2048, a tie going to the even multiple. -/
def counted (n : Int) : Int :=
  if n < 9223372036854775808 then n else 2048 * Binary64.roundHalfEven n.toNat 2048

/-- Two integers that a comparison takes for the same. -/
def SameNumber (m n : Int) : Prop :=
  m = n ∨ 9223372036854775808 ≤ m ∧ 9223372036854775808 ≤ n ∧
    Binary64.roundHalfEven m.toNat 2048 = Binary64.roundHalfEven n.toNat 2048

variable {m n : Int}

theorem counted_of_lt (h : n < 9223372036854775808) : counted n = n := if_pos h

/-- Rounding does not bring an integer back among the signed ones. -/
theorem le_counted (h : 9223372036854775808 ≤ n) : 9223372036854775808 ≤ counted n := by
  have hquotient := Binary64.div_le_roundHalfEven n.toNat 2048
  rw [counted, if_neg (Int.not_lt.2 h)]
  omega

theorem counted_eq_iff : counted m = counted n ↔ SameNumber m n := by
  unfold SameNumber
  rcases Int.lt_or_le m 9223372036854775808 with hm | hm <;>
    rcases Int.lt_or_le n 9223372036854775808 with hn | hn
  · rw [counted_of_lt hm, counted_of_lt hn]
    omega
  · have hbeyond := le_counted hn
    rw [counted_of_lt hm]
    omega
  · have hbeyond := le_counted hm
    rw [counted_of_lt hn]
    omega
  · rw [counted, counted, if_neg (Int.not_lt.2 hm), if_neg (Int.not_lt.2 hn)]
    constructor
    · intro h
      exact .inr ⟨hm, hn, by omega⟩
    · rintro (rfl | ⟨-, -, h⟩)
      · rfl
      · rw [h]

theorem ofInt_of_lt (hlow : -9223372036854775808 ≤ n) (hhigh : n < 9223372036854775808) :
    ofInt n = .int (Int64.ofInt n) := by
  rw [ofInt, if_pos]
  exact ⟨hlow, Int.le_of_lt_add_one hhigh⟩

theorem ofInt_of_le (h : 9223372036854775808 ≤ n) : ofInt n = .float (Binary64.ofInt n) := by
  rw [ofInt, if_neg]
  exact fun hfits => absurd (Int.le_trans h hfits.2) (by decide)

theorem ofInt_toInt {k : Int64} (h : k.toInt = n) : ofInt n = .int k := by
  rw [← h, ofInt_of_lt k.le_toInt k.toInt_lt, Int64.ofInt_toInt]

/-- What an integer is as a scalar: a number, of the value that it is compared as. -/
theorem value_ofInt (hlow : -9223372036854775808 ≤ n) (hhigh : n < 18446744073709551616) :
    (ofInt n).isNaN = false ∧ (ofInt n).value = counted n * Binary64.unitsPerOne := by
  rcases Int.lt_or_le n 9223372036854775808 with hfits | hbeyond
  · have htoInt : (Int64.ofInt n).toInt = n := Int64.toInt_ofInt_of_le hlow hfits
    rw [ofInt_of_lt hlow hfits, counted_of_lt hfits, value, htoInt]
    exact ⟨rfl, rfl⟩
  · -- Beyond the signed integers all have 64 bits, which are rounded to 53.
    obtain ⟨k, rfl⟩ := Int.eq_ofNat_of_zero_le (a := n) (by omega)
    have hlength : k.log2 = 63 := (Nat.log2_eq_iff (by omega)).2 ⟨by omega, by omega⟩
    have hnumber := Binary64.isNaN_ofInt (n := k) (by omega) (by omega)
    have hunits := Binary64.units_ofInt (n := k) (by omega) (by omega)
    rw [ofInt_of_le hbeyond, isNaN, value, hnumber, if_neg Bool.false_ne_true, hunits, counted,
      if_neg (Int.not_lt.2 hbeyond), Binary64.rounded, Binary64.excess, hlength, Nat.shiftLeft_eq,
      Int.natCast_mul, Int.mul_comm _ (2 ^ (63 - 52) : Nat)]
    exact ⟨rfl, rfl⟩

theorem rank_ofInt (n : Int) : (ofInt n).rank = 1 := by
  unfold ofInt
  split <;> rfl

theorem text?_ofInt (n : Int) : (ofInt n).text? = none := by
  unfold ofInt
  split <;> rfl

/-- Integers are equal in a comparison if they are compared as the same number. -/
theorem equals_ofInt (hm : -9223372036854775808 ≤ m ∧ m < 18446744073709551616)
    (hn : -9223372036854775808 ≤ n ∧ n < 18446744073709551616) :
    equals false (ofInt m) (ofInt n) = true ↔ SameNumber m n := by
  obtain ⟨hmnumber, hmvalue⟩ := value_ofInt hm.1 hm.2
  obtain ⟨hnnumber, hnvalue⟩ := value_ofInt hn.1 hn.2
  rw [equals_iff (by rw [rank_ofInt, rank_ofInt]) hmnumber hnnumber, hmvalue, hnvalue,
    text?_ofInt, text?_ofInt, and_iff_left rfl, ← counted_eq_iff]
  exact Int.mul_eq_mul_right_iff (Int.ne_of_gt Binary64.unitsPerOne_pos)

end Scalar

/-! ## Comparing payload fields -/

/-- A name without points is one step into the payload. -/
theorem StoredRecord.field_of_get? {r : StoredRecord} {name : String} {held : Json}
    (hname : '.' ∉ name.toList) (hheld : r.payload.get? name = some held) :
    r.field name = some held := by
  rw [field, segments, List.splitOn_eq_singleton hname]
  cases hpayload : r.payload with
  | object fields =>
    rw [hpayload, Json.get?] at hheld
    simpa [stepInto] using hheld
  | null | bool _ | integer _ | float _ | text _ | array _ =>
    rw [hpayload] at hheld
    cases hheld

/-- Comparing a payload field with an operand, for equality and for inequality, goes through, and
    decides for every value that may be written in the field whether it and the operand are the
    same. -/
def TellsApart (r : StoredRecord) (name : String) (α : Type) [Projectable α] [JsonForm α]
    (Same : α → α → Prop) : Prop :=
  ∀ a b : α, r.payload.get? name = some (toJson a) →
    (∃ x, (Field.ofPath name : Field α).compile (.equalTo (some b) false) = .ok x ∧
      (x.holds r = true ↔ Same a b)) ∧
    ∃ x, (Field.ofPath name : Field α).compile (.notEqualTo (some b) false) = .ok x ∧
      (x.holds r = true ↔ ¬ Same a b)

namespace TellsApart

variable {r : StoredRecord} {name : String} {α : Type} [Projectable α] [JsonForm α]

/-- It is enough that a written value is read as its projection, and that projections are equal
    exactly for values that are the same. -/
theorem of_project {Same : α → α → Prop} (hname : '.' ∉ name.toList) (scalar : α → Scalar)
    (hproject : ∀ a : α, project a = some (scalar a))
    (hwritten : ∀ a : α, Scalar.ofPayload (toJson a) = some (scalar a))
    (hequals : ∀ a b, Scalar.equals false (scalar a) (scalar b) = true ↔ Same a b) :
    TellsApart r name α Same := by
  intro a b hheld
  have hread : (FieldPath.payload name).read r = some (scalar a) := by
    rw [FieldPath.read, StoredRecord.field_of_get? hname hheld, Option.bind_some, hwritten]
  have hoperand : (Field.ofPath name : Field α).operand (some b) = some (scalar b) := hproject b
  have hmatches : Scalar.Matches false ((FieldPath.payload name).read r)
      ((Field.ofPath name : Field α).operand (some b)) ↔ Same a b := by
    rw [hread, hoperand, Field.matches_some_iff, Option.any_some, hequals]
  obtain ⟨equal, hequal, hholds⟩ :=
    (Field.ofPath name : Field α).exists_compile (.equalTo (some b) false) fun _ => id
  obtain ⟨unequal, hunequal, hfails⟩ :=
    (Field.ofPath name : Field α).exists_compile (.notEqualTo (some b) false) fun _ => id
  exact ⟨⟨equal, hequal, (hholds r).trans hmatches⟩,
    unequal, hunequal, (hfails r).trans (not_congr hmatches)⟩

/-- A type written as text, a different one for each value. -/
theorem of_text (hname : '.' ∉ name.toList) (text : α → String)
    (hproject : ∀ a : α, project a = some (.text (text a)))
    (hwritten : ∀ a : α, toJson a = .text (text a)) (hinjective : ∀ a b, text a = text b ↔ a = b) :
    TellsApart r name α (· = ·) :=
  of_project hname (fun a => .text (text a)) hproject
    (fun a => by rw [hwritten, Scalar.ofPayload])
    fun a b => Scalar.equals_text.trans (hinjective a b)

/-- A type written as integers of 64 bits, with or without a sign. -/
theorem of_integer (hname : '.' ∉ name.toList) (toInt : α → Int)
    (hproject : ∀ a : α, project a = some (Scalar.ofInt (toInt a)))
    (hwritten : ∀ a : α, toJson a = .integer (toInt a))
    (hrange : ∀ a, -9223372036854775808 ≤ toInt a ∧ toInt a < 18446744073709551616) :
    TellsApart r name α fun a b => Scalar.SameNumber (toInt a) (toInt b) :=
  of_project hname (fun a => Scalar.ofInt (toInt a)) hproject
    (fun a => by rw [hwritten, Scalar.ofPayload])
    fun a b => Scalar.equals_ofInt (hrange a) (hrange b)

/-- Integers that 64 signed bits hold are told apart. -/
theorem of_signed (hname : '.' ∉ name.toList) (toInt : α → Int)
    (hproject : ∀ a : α, project a = some (Scalar.ofInt (toInt a)))
    (hwritten : ∀ a : α, toJson a = .integer (toInt a))
    (hrange : ∀ a, -9223372036854775808 ≤ toInt a ∧ toInt a < 9223372036854775808)
    (hinjective : ∀ a b, toInt a = toInt b ↔ a = b) : TellsApart r name α (· = ·) := by
  have hsame : (fun a b => Scalar.SameNumber (toInt a) (toInt b)) =
      ((· = ·) : α → α → Prop) := by
    funext a b
    have ha := (hrange a).2
    rw [← Scalar.counted_eq_iff, Scalar.counted_of_lt ha, Scalar.counted_of_lt (hrange b).2,
      hinjective]
  rw [← hsame]
  exact of_integer hname toInt hproject hwritten fun a =>
    ⟨(hrange a).1, Int.lt_trans (hrange a).2 (by decide)⟩

end TellsApart

/-- Comparing a payload field with an operand of the type that is written there. For every type
    with a projection of its own the comparison tells all values apart, except that 64-bit integers
    without a sign are compared above the signed ones as the nearest multiples of 2048. -/
theorem projections_tell_apart (r : StoredRecord) (name : String) (hname : '.' ∉ name.toList) :
    TellsApart r name Int8 (· = ·) ∧ TellsApart r name Int16 (· = ·) ∧
      TellsApart r name Int32 (· = ·) ∧ TellsApart r name Int64 (· = ·) ∧
      TellsApart r name UInt8 (· = ·) ∧ TellsApart r name UInt16 (· = ·) ∧
      TellsApart r name UInt32 (· = ·) ∧
      TellsApart r name UInt64 (fun a b => Scalar.SameNumber a.toNat b.toNat) ∧
      TellsApart r name Bool (· = ·) ∧ TellsApart r name String (· = ·) ∧
      TellsApart r name RecordRef (· = ·) ∧ TellsApart r name TransactionId (· = ·) ∧
      TellsApart r name Party (· = ·) ∧ TellsApart r name RecordType (· = ·) ∧
      TellsApart r name Uuid (· = ·) := by
  refine ⟨?int8, ?int16, ?int32, ?int64, ?uint8, ?uint16, ?uint32, ?uint64, ?bool, ?string,
    ?recordRef, ?transactionId, ?party, ?recordType, ?uuid⟩
  case int8 =>
    refine .of_signed hname Int8.toInt
      (fun a => congrArg some (Scalar.ofInt_toInt a.toInt_toInt64).symm) (fun _ => rfl)
      (fun a => ?_) fun _ _ => Int8.toInt_inj
    have hlow := a.le_toInt
    have hhigh := a.toInt_lt
    omega
  case int16 =>
    refine .of_signed hname Int16.toInt
      (fun a => congrArg some (Scalar.ofInt_toInt a.toInt_toInt64).symm) (fun _ => rfl)
      (fun a => ?_) fun _ _ => Int16.toInt_inj
    have hlow := a.le_toInt
    have hhigh := a.toInt_lt
    omega
  case int32 =>
    refine .of_signed hname Int32.toInt
      (fun a => congrArg some (Scalar.ofInt_toInt a.toInt_toInt64).symm) (fun _ => rfl)
      (fun a => ?_) fun _ _ => Int32.toInt_inj
    have hlow := a.le_toInt
    have hhigh := a.toInt_lt
    omega
  case int64 =>
    exact .of_signed hname Int64.toInt (fun _ => congrArg some (Scalar.ofInt_toInt rfl).symm)
      (fun _ => rfl) (fun a => ⟨a.le_toInt, a.toInt_lt⟩) fun _ _ => Int64.toInt_inj
  case uint8 =>
    refine .of_signed hname (fun a => (UInt8.toNat a : Int)) (fun _ => rfl) (fun _ => rfl)
      (fun a => ?_) fun _ _ => Int.ofNat_inj.trans UInt8.toNat_inj
    have hhigh := a.toNat_lt
    omega
  case uint16 =>
    refine .of_signed hname (fun a => (UInt16.toNat a : Int)) (fun _ => rfl) (fun _ => rfl)
      (fun a => ?_) fun _ _ => Int.ofNat_inj.trans UInt16.toNat_inj
    have hhigh := a.toNat_lt
    omega
  case uint32 =>
    refine .of_signed hname (fun a => (UInt32.toNat a : Int)) (fun _ => rfl) (fun _ => rfl)
      (fun a => ?_) fun _ _ => Int.ofNat_inj.trans UInt32.toNat_inj
    have hhigh := a.toNat_lt
    omega
  case uint64 =>
    refine .of_integer hname (fun a => (UInt64.toNat a : Int)) (fun _ => rfl) (fun _ => rfl)
      fun a => ?_
    have hhigh := a.toNat_lt
    omega
  case bool =>
    exact .of_project hname Scalar.bool (fun _ => rfl) (fun _ => rfl) fun _ _ => Scalar.equals_bool
  case string => exact .of_text hname id (fun _ => rfl) (fun _ => rfl) fun _ _ => Iff.rfl
  case recordRef =>
    exact .of_text hname RecordRef.render (fun _ => rfl) (fun _ => rfl) fun _ _ =>
      RecordRef.render_inj
  case transactionId =>
    exact .of_text hname TransactionId.render (fun _ => rfl) (fun _ => rfl) fun _ _ =>
      TransactionId.render_inj
  case uuid =>
    exact .of_text hname Uuid.render (fun _ => rfl) (fun _ => rfl) fun _ _ => Uuid.render_inj
  case party =>
    exact .of_text hname Party.name (fun _ => rfl) (fun _ => rfl) fun ⟨_⟩ ⟨_⟩ => by simp
  case recordType =>
    exact .of_text hname RecordType.name (fun _ => rfl) (fun _ => rfl) fun ⟨_⟩ ⟨_⟩ => by simp

/-- A field that holds 2^63 + 1: it equals 2^63, to which it is rounded, and differs from the
    smallest integer that is rounded up from there. -/
theorem projections_tell_apart_aboveSigned :
    let r := holding 1 (.object [("n", toJson (9223372036854775809 : UInt64))])
    '.' ∉ "n".toList ∧
      (∃ x, (Field.ofPath "n" : Field UInt64).compile
        (.equalTo (some 9223372036854775808) false) = .ok x ∧ x.holds r = true) ∧
      ∃ x, (Field.ofPath "n" : Field UInt64).compile
        (.notEqualTo (some 9223372036854776833) false) = .ok x ∧ x.holds r = true := by
  intro r
  obtain ⟨-, -, -, -, -, -, -, htell, -⟩ := projections_tell_apart r "n" (by decide)
  obtain ⟨⟨equal, hequal, hholds⟩, -⟩ := htell 9223372036854775809 9223372036854775808 rfl
  obtain ⟨-, unequal, hunequal, hfails⟩ := htell 9223372036854775809 9223372036854776833 rfl
  refine ⟨by decide, ⟨equal, hequal, hholds.2 ?_⟩, unequal, hunequal, hfails.2 ?_⟩
  · exact .inr ⟨by decide, by decide, by decide⟩
  · rintro (h | ⟨-, -, h⟩)
    · exact absurd h (by decide)
    · exact absurd h (by decide)

/-- Not every 64-bit integer without a sign is told apart: 2^63 + 1 passes for 2^63. -/
theorem unsigned_not_told_apart :
    ¬ TellsApart (holding 1 (.object [("n", toJson (9223372036854775809 : UInt64))])) "n" UInt64
      (· = ·) := by
  intro htell
  obtain ⟨⟨x, hx, hholds⟩, -⟩ := htell 9223372036854775809 9223372036854775808 rfl
  cases hx
  exact absurd (hholds.1 (by decide +kernel)) (by decide)

end LedgerQuery
