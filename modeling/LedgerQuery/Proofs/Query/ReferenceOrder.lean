/-
  LedgerQuery.Proofs.Query.ReferenceOrder

  Bounds on references. A comparison sees references as texts, while sorting compares them as they
  are: transactions by their bytes, then places by number. The texts keep the order of the
  transactions, but of two outputs of one transaction they may turn the order round
  (`RecordRef.compare_render`). A bound that is turned round against no record of a selection cuts
  the selection in two (`Store.select_bounded`). Main statement: `reference_bounds`.
-/
import LedgerQuery.Proofs.Query.Predicate
import LedgerQuery.Proofs.Text.Order
import LedgerQuery.Proofs.Vault.Reachable

namespace LedgerQuery

open Std

/-! ## References as texts -/

namespace RecordRef

variable {a b : RecordRef}

/-- Two outputs of one transaction whose places stand the other way round as numerals: the smaller
    place is above the leading digits of the greater one. -/
def Crossed (a b : RecordRef) : Prop :=
  a.transaction = b.transaction ∧ Numeral.Crossed a.index.toNat b.index.toNat

instance (a b : RecordRef) : Decidable (Crossed a b) := inferInstanceAs (Decidable (_ ∧ _))

/-- The order of references but for outputs that are crossed, which change places. -/
def compareWritten (a b : RecordRef) : Ordering :=
  if Crossed a b then (compare a b).swap else compare a b

theorem compare_eq (a b : RecordRef) :
    compare a b = (compare a.transaction b.transaction).then
      (compare a.index.toNat b.index.toNat) := by
  rw [← compare_eq_compare_map UInt32.toNat UInt32.lt_iff_toNat_lt]
  rfl

/-- References are ordered by their texts as the transactions are and, within a transaction, as
    the numerals of their places. -/
theorem compare_render_eq (a b : RecordRef) :
    compare a.render b.render = (compare a.transaction b.transaction).then
      (compare (Numeral.render a.index.toNat) (Numeral.render b.index.toNat)) := by
  have htoList (r : RecordRef) : r.render.toList =
      Hex.digits r.transaction.bytes ++ ':' :: Numeral.digits r.index.toNat := by
    simp [render, TransactionId.render, Hex.encode, Numeral.render]
  have hlength : (Hex.digits a.transaction.bytes).length =
      (Hex.digits b.transaction.bytes).length := by
    rw [Hex.length_digits, Hex.length_digits, a.transaction.length_eq, b.transaction.length_eq]
  have hplaces :
      compare (':' :: Numeral.digits a.index.toNat) (':' :: Numeral.digits b.index.toNat) =
        compare (Numeral.render a.index.toNat) (Numeral.render b.index.toNat) := by
    rw [compare_eq_compare_toList, List.compare_eq_compareLex, List.compareLex_cons_cons,
      compare_self]
    simp [Numeral.render]
  rw [compare_eq_compare_toList, htoList, htoList, compare_append hlength, Hex.compare_digits,
    hplaces]
  rfl

/-- Ordered by their texts, references keep their order but for those that are crossed. -/
theorem compare_render (a b : RecordRef) : compare a.render b.render = compareWritten a b := by
  rw [compare_render_eq, Numeral.compare_render, compareWritten, compare_eq]
  cases htransaction : compare a.transaction b.transaction with
  | eq =>
    have hsame : a.transaction = b.transaction := LawfulEqOrd.eq_of_compare htransaction
    have hcrossed : Crossed a b ↔ Numeral.Crossed a.index.toNat b.index.toNat :=
      and_iff_right hsame
    simp only [hcrossed, Ordering.eq_then]
  | lt | gt =>
    have hapart : ¬ Crossed a b := fun h => by
      rw [h.1, compare_self] at htransaction
      cases htransaction
    rw [if_neg hapart]
    rfl

end RecordRef

/-! ## Bounds -/

theorem Scalar.ordered_text_iff {op : OrderOp} {s t : String} :
    Scalar.Ordered op (some (.text s)) (some (.text t)) ↔ op.Allows (compare s t) := by
  simp [Scalar.Ordered, Scalar.compare?]

/-- A bound on a reference compiles to one on its text. -/
theorem Field.exists_bound (place : Attribute) (op : OrderOp) (b : RecordRef) :
    ∃ x, (Field.ofAttribute place : Field RecordRef).compile (.ordered op (some b)) = .ok x ∧
      ∀ r, x.holds r = true ↔
        Scalar.Ordered op ((FieldPath.ofRecord place).read r) (some (.text b.render)) :=
  Field.exists_compile _ _ fun _ hfault => nomatch hfault.1

theorem exists_referenceBound (op : OrderOp) (b : RecordRef) :
    ∃ x, Field.reference.compile (.ordered op (some b)) = .ok x ∧
      ∀ r, x.holds r = true ↔ op.Allows (r.reference.compareWritten b) := by
  obtain ⟨x, hx, hholds⟩ := Field.exists_bound .reference op b
  refine ⟨x, hx, fun r => (hholds r).trans ?_⟩
  rw [FieldPath.read, Scalar.ordered_text_iff, RecordRef.compare_render]

theorem exists_backReferenceBound (op : OrderOp) (b : RecordRef) :
    ∃ x, Field.backReference.compile (.ordered op (some b)) = .ok x ∧
      ∀ r, x.holds r = true ↔ ∃ a, r.back = some a ∧ op.Allows (a.compareWritten b) := by
  obtain ⟨x, hx, hholds⟩ := Field.exists_bound .backReference op b
  refine ⟨x, hx, fun r => (hholds r).trans ?_⟩
  rw [FieldPath.read]
  cases r.back with
  | none => simp [Scalar.Ordered]
  | some a => simp [Scalar.ordered_text_iff, RecordRef.compare_render]

/-! ## Bounded selections -/

/-- The direction in which an ordering goes on to hold. -/
def OrderOp.toward : OrderOp → Direction
  | .greaterThan | .greaterOrEqual => .ascending
  | .lessThan | .lessOrEqual => .descending

/-- Against its direction, an ordering is turned round. -/
theorem Direction.apply_swap {d d' : Direction} (h : d' ≠ d) (o : Ordering) :
    d.apply o.swap = d'.apply o := by
  cases d <;> cases d'
  case ascending.ascending | descending.descending => exact absurd rfl h
  case ascending.descending => rfl
  case descending.ascending => exact Ordering.swap_swap

/-- What a bound allows, it allows of everything that comes later in its direction. -/
theorem OrderOp.Allows.onward {α : Type} [Ord α] [TransOrd α] {op : OrderOp} {a a' b : α}
    (hlater : (op.toward.apply (compare a a')).isLE = true) (h : op.Allows (compare a b)) :
    op.Allows (compare a' b) := by
  have hswap : compare a a' = (compare a' a).swap := OrientedCmp.eq_swap
  rw [hswap] at hlater
  rw [← OrderOp.holds_iff] at h ⊢
  cases op with
  | greaterThan =>
    have hge : (compare a' a).isGE = true := by simpa [toward, Direction.apply] using hlater
    have hgt : compare a b = .gt := by simpa [OrderOp.holds] using h
    simp [OrderOp.holds, TransCmp.gt_of_isGE_of_gt hge hgt]
  | greaterOrEqual =>
    have hge : (compare a' a).isGE = true := by simpa [toward, Direction.apply] using hlater
    exact TransCmp.isGE_trans hge h
  | lessThan =>
    have hle : (compare a' a).isLE = true := by simpa [toward, Direction.apply] using hlater
    have hlt : compare a b = .lt := by simpa [OrderOp.holds] using h
    simp [OrderOp.holds, TransCmp.lt_of_isLE_of_lt hle hlt]
  | lessOrEqual =>
    have hle : (compare a' a).isLE = true := by simpa [toward, Direction.apply] using hlater
    exact TransCmp.isLE_trans hle h

section

variable {α : Type} {p : α → Bool}

theorem filter_isPrefix {l : List α} (h : l.Pairwise fun a b => p b = true → p a = true) :
    l.filter p <+: l := by
  induction l with
  | nil => exact List.prefix_rfl
  | cons a l ih =>
    obtain ⟨hhead, htail⟩ := List.pairwise_cons.1 h
    cases ha : p a with
    | true =>
      rw [List.filter_cons_of_pos ha]
      exact List.cons_prefix_cons.2 ⟨rfl, ih htail⟩
    | false =>
      have hnone : l.filter p = [] := by
        refine List.filter_eq_nil_iff.2 fun b hb hp => ?_
        rw [hhead b hb hp] at ha
        cases ha
      rw [List.filter_cons_of_neg (by rw [ha]; exact Bool.false_ne_true), hnone]
      exact List.nil_prefix

theorem filter_isSuffix {l : List α} (h : l.Pairwise fun a b => p a = true → p b = true) :
    l.filter p <:+ l := by
  have hreversed : l.reverse.filter p <+: l.reverse := filter_isPrefix (List.pairwise_reverse.2 h)
  rwa [List.filter_reverse, List.reverse_prefix] at hreversed

end

namespace Store

variable {s : Store} {c : Criteria} {paging : PageSpec} {d : Direction}

/-- Criteria that an expression is added to select what it holds of, in the same order. -/
theorem select_and_expression (hs : s.Indexed) (c : Criteria) (paging : PageSpec) (d : Direction)
    (x : Expression) : s.select ⟨.and c (.expression x), paging, .on .reference d⟩ =
      (s.select ⟨c, paging, .on .reference d⟩).filter x.holds := by
  have hadmits : (Criteria.and c (.expression x)).admits = fun r => x.holds r && c.admits r :=
    funext fun r => Bool.and_comm _ _
  rw [select, select, hadmits, ← List.filter_filter]
  exact SortOrder.arrange_filter ⟨_, List.mem_singleton_self _, rfl⟩ (hs.nodup_filter _) _

/-- Sorted by reference, a selection goes on in the direction of the column. -/
theorem select_pairwise (s : Store) (c : Criteria) (paging : PageSpec) (d : Direction) :
    (s.select ⟨c, paging, .on .reference d⟩).Pairwise fun a b =>
      (d.apply (compare a.reference b.reference)).isLE = true := by
  refine (SortOrder.arrange_pairwise _ _).imp fun {a b} hle => ?_
  have horder : (SortOrder.on .reference d).order a b =
      d.apply (compare a.reference b.reference) := Ordering.then_eq
  rwa [horder] at hle

/-- A bound that is crossed with no record of a selection sorted by reference cuts it in two. -/
theorem select_bounded {op : OrderOp} {b : RecordRef} {x : Expression}
    (hholds : ∀ r, x.holds r = true ↔ op.Allows (r.reference.compareWritten b))
    (hstraight : ∀ r ∈ s.select ⟨c, paging, .on .reference d⟩, ¬ r.reference.Crossed b) :
    let all := s.select ⟨c, paging, .on .reference d⟩
    (op.toward = d → all.filter x.holds <:+ all) ∧
      (op.toward ≠ d → all.filter x.holds <+: all) := by
  intro all
  have hnumeric (r : StoredRecord) (hr : r ∈ all) :
      x.holds r = true ↔ op.Allows (compare r.reference b) := by
    rw [hholds, RecordRef.compareWritten, if_neg (hstraight r hr)]
  have hordered := s.select_pairwise c paging d
  constructor
  · rintro rfl
    refine filter_isSuffix (hordered.imp_of_mem fun {r r'} hr hr' hle hallowed => ?_)
    exact (hnumeric r' hr').2 (((hnumeric r hr).1 hallowed).onward hle)
  · intro hd
    refine filter_isPrefix (hordered.imp_of_mem fun {r r'} hr hr' hle hallowed => ?_)
    -- Against the direction of the bound, the earlier record is the one further on.
    have hswap : compare r.reference r'.reference = (compare r'.reference r.reference).swap :=
      OrientedCmp.eq_swap
    rw [hswap, Direction.apply_swap hd] at hle
    exact (hnumeric r hr).2 (((hnumeric r' hr').1 hallowed).onward hle)

end Store

/-- A bound on references, in any of the four orderings. Compared with a record's own reference it
    holds in the order of references, but for outputs of the same transaction that are crossed
    with the bound, for which it holds the other way round. Added to criteria it selects, of what
    they select by reference, the records it holds of; if none of them is crossed with the bound,
    these are what comes last in the direction of the bound. Compared with a predecessor, the
    bound holds by the same order of the records that have one. -/
theorem reference_bounds (v : Vault) (hv : v.Reachable) (op : OrderOp) (b : RecordRef) :
    (∃ x, Field.reference.compile (.ordered op (some b)) = .ok x ∧
      (∀ r, x.holds r = true ↔ op.Allows (r.reference.compareWritten b)) ∧
      ∀ (c : Criteria) (paging : PageSpec) (d : Direction),
        let all := v.store.select ⟨c, paging, .on .reference d⟩
        let bounded := v.store.select ⟨.and c (.expression x), paging, .on .reference d⟩
        bounded = all.filter x.holds ∧
          ((∀ r ∈ all, ¬ r.reference.Crossed b) →
            (op.toward = d → bounded <:+ all) ∧ (op.toward ≠ d → bounded <+: all))) ∧
    ∃ x, Field.backReference.compile (.ordered op (some b)) = .ok x ∧
      ∀ r, x.holds r = true ↔ ∃ a, r.back = some a ∧ op.Allows (a.compareWritten b) := by
  obtain ⟨x, hx, hholds⟩ := exists_referenceBound op b
  refine ⟨⟨x, hx, hholds, fun c paging d => ?_⟩, exists_backReferenceBound op b⟩
  have hbounded := v.store.select_and_expression hv.sound.indexed c paging d x
  refine ⟨hbounded, fun hstraight => ?_⟩
  rw [hbounded]
  exact Store.select_bounded hholds hstraight

/-- One transaction with three outputs. -/
def threeOutputs : List (Instant × Transaction) :=
  let output : Output := ⟨none, [.any], .null, [], none⟩
  [(.epoch, ⟨.ofNumber 1, [], [output, output, output]⟩)]

/-- Three outputs of one transaction, and those from the second on. -/
theorem reference_bounds_threeOutputs :
    let v := (Vault.recordAll {} threeOutputs).1
    let b : RecordRef := ⟨.ofNumber 1, 1⟩
    let all := v.store.select ⟨.forType .any .all, .initial, .on .reference .ascending⟩
    v.Reachable ∧ (∀ r ∈ all, ¬ r.reference.Crossed b) ∧ all.length = 3 ∧
      ∃ x, Field.reference.compile (.ordered .greaterOrEqual (some b)) = .ok x ∧
        v.store.select ⟨.and (.forType .any .all) (.expression x), .initial,
          .on .reference .ascending⟩ <:+ all := by
  intro v b all
  have hreachable : v.Reachable := .recordAll {} (by decide)
  have hrecords : ∀ r ∈ v.store.records, ¬ r.reference.Crossed b := by decide
  have hstraight : ∀ r ∈ all, ¬ r.reference.Crossed b := fun r hr =>
    hrecords r (Store.mem_select.1 hr).1
  have hlength : all.length = 3 := by
    rw [(Store.select_perm _ _).length_eq]
    decide
  obtain ⟨⟨x, hx, -, hselect⟩, -⟩ := reference_bounds v hreachable .greaterOrEqual b
  obtain ⟨-, hcut⟩ := hselect (.forType .any .all) .initial .ascending
  exact ⟨hreachable, hstraight, hlength, x, hx, (hcut hstraight).1 rfl⟩

/-- Output 10 of a transaction is after output 9, but a bound takes them the other way round. -/
theorem reference_bound_not_numeric :
    let b : RecordRef := ⟨.ofNumber 1, 9⟩
    let r : StoredRecord := { holding 1 .null with reference := ⟨.ofNumber 1, 10⟩ }
    ¬ ∃ x, Field.reference.compile (.ordered .greaterThan (some b)) = .ok x ∧
      (x.holds r = true ↔ OrderOp.greaterThan.Allows (compare r.reference b)) := by
  rintro b r ⟨x, hx, hholds⟩
  cases hx
  have hgreater : compare r.reference b = .gt := by decide
  exact absurd (hholds.2 hgreater) (by decide +kernel)

end LedgerQuery
