/-
  LedgerQuery.Proofs.Record.Reference

  Identifiers of transactions and references to records are read back from their texts, so that
  the text tells them apart; the text of a unique identifier does so too.
-/
import LedgerQuery.Proofs.Text.Digits
import LedgerQuery.Record.Reference
import LedgerQuery.Record.Uuid

namespace LedgerQuery

/-! ## References -/

/-- The identifier of a transaction is read back from its digits. -/
@[simp] theorem TransactionId.read_render (id : TransactionId) : read id.render = .ok id := by
  rw [read, render, Hex.decode_encode]
  dsimp only
  rw [dif_pos id.length_eq]

/-- Two identifiers with the same text are the same. -/
theorem TransactionId.render_inj {a b : TransactionId} : a.render = b.render ↔ a = b := by
  constructor
  · intro h
    have htexts : read a.render = read b.render := congrArg read h
    rw [read_render, read_render] at htexts
    exact Except.ok.inj htexts
  · rintro rfl
    rfl

namespace RecordRef

/-- A text is split at the colon in front of a part that has none. -/
theorem splitLast?_append (before : String) {after : List Char} (h : ∀ c ∈ after, c ≠ ':') :
    splitLast? (before ++ ":" ++ String.ofList after) = some (before, String.ofList after) := by
  -- Seen from the end, the part without a colon comes first.
  have hreversed : (before ++ ":" ++ String.ofList after).toList.reverse =
      after.reverse ++ ':' :: before.toList.reverse := by
    simp
  have hback : (after.reverse ++ ':' :: before.toList.reverse).takeWhile (· ≠ ':') =
      after.reverse := by
    rw [List.takeWhile_append_of_pos (by simpa using h)]
    simp
  simp only [splitLast?, hreversed, hback]
  rw [List.drop_left]
  simp

/-- A reference is read back from its text. -/
@[simp] theorem read_render (r : RecordRef) : read r.render = .ok r := by
  have hnoColon : ∀ c ∈ Numeral.digits r.index.toNat, c ≠ ':' := by
    rintro c hc rfl
    exact absurd (Numeral.isDigit_of_mem_digits hc) (by decide)
  rw [read, render, Numeral.render, splitLast?_append _ hnoColon]
  simp [Except.map]

/-- Two references with the same text are the same. -/
theorem render_inj {r s : RecordRef} : r.render = s.render ↔ r = s := by
  constructor
  · intro h
    have htexts : read r.render = read s.render := congrArg read h
    rw [read_render, read_render] at htexts
    exact Except.ok.inj htexts
  · rintro rfl
    rfl

end RecordRef

/-! ## Unique identifiers -/

namespace Uuid

/-- Without the hyphens the text is that of the bytes. -/
theorem filter_characters (id : Uuid) :
    id.characters.filter (· ≠ '-') = Hex.digits id.bytes := by
  have hnoHyphen : ∀ c ∈ Hex.digits id.bytes, c ≠ '-' := by
    rintro c hc rfl
    obtain ⟨n, hsmall, hdigit⟩ := Hex.exists_of_mem_digits hc
    have hall : ∀ k ∈ List.range 16, Hex.digit k ≠ '-' := by decide
    exact hall n (List.mem_range.2 hsmall) hdigit.symm
  rw [characters]
  generalize Hex.digits id.bytes = cs at hnoHyphen ⊢
  -- The filter leaves every group as it is, and the groups follow one another.
  have hgroup : ∀ part : List Char, part ⊆ cs → part.filter (· ≠ '-') = part :=
    fun part hpart => List.filter_eq_self.2 fun c hc => decide_eq_true (hnoHyphen c (hpart hc))
  have hinside : ∀ start width, (cs.drop start).take width ⊆ cs := fun start width =>
    List.Subset.trans (List.take_subset _ _) (List.drop_subset _ _)
  have hnext : ∀ start width,
      (cs.drop start).take width ++ cs.drop (start + width) = cs.drop start := by
    intro start width
    rw [← List.drop_drop, List.take_append_drop]
  have hhyphen : ∀ rest : List Char,
      ('-' :: rest).filter (· ≠ '-') = rest.filter (· ≠ '-') := fun rest =>
    List.filter_cons_of_neg (by decide)
  simp only [List.filter_append, hhyphen, hgroup _ (hinside _ _),
    hgroup _ (List.take_subset _ _), hgroup _ (List.drop_subset _ _), List.append_assoc]
  rw [hnext 16 4, hnext 12 4, hnext 8 4, List.take_append_drop]

/-- Two identifiers with the same text are the same. -/
theorem render_inj {a b : Uuid} : a.render = b.render ↔ a = b := by
  constructor
  · intro h
    have hdigits : Hex.digits a.bytes = Hex.digits b.bytes := by
      rw [← filter_characters, ← filter_characters, String.ofList_injective h]
    have hbytes : Hex.decode (Hex.encode a.bytes) = Hex.decode (Hex.encode b.bytes) := by
      rw [Hex.encode, hdigits, Hex.encode]
    rw [Hex.decode_encode, Hex.decode_encode] at hbytes
    cases a
    cases b
    cases hbytes
    rfl
  · rintro rfl
    rfl

end Uuid

end LedgerQuery
