/-
  LedgerQuery.Proofs.Query.Untimed

  What queries have to do with the times of records. Criteria look at none (`admits_untimed`), so
  times count in an answer only as far as they put the records in order. If the columns get to the
  reference before they get to a time, which tells any two records of a store apart, then records
  that agree but for their times are put into the same order (`arrange_untimed_eq`).
-/
import LedgerQuery.Proofs.Query.Sorting
import LedgerQuery.Proofs.Query.Status

namespace LedgerQuery

open Std

variable {r : StoredRecord}

/-! ## Records -/

/-- A record, its times aside. Of its consumption it is told only whether there was one. -/
def StoredRecord.untimed (r : StoredRecord) : StoredRecord :=
  { r with recordedAt := .epoch, consumedAt := r.consumedAt.map fun _ => .epoch }

/-- The records of a page, their times aside. -/
def Page.untimed (p : Page StoredRecord) : Page StoredRecord :=
  { p with records := p.records.map StoredRecord.untimed }

/-! ## Criteria -/

/-- No place that a comparison reads is a time. -/
@[simp] theorem FieldPath.read_untimed (p : FieldPath) : p.read r.untimed = p.read r := by
  cases p with
  | payload path => rfl
  | ofRecord a => cases a <;> rfl

theorem Criteria.admits_untimed (c : Criteria) (r : StoredRecord) :
    c.admits r.untimed = c.admits r :=
  eval_congr (fun _ _ => rfl) rfl fun _ => Expression.holds_congr fun p => p.read_untimed

/-! ## Columns -/

namespace SortOrder

variable {s : SortOrder} {a b : StoredRecord} {records others : List StoredRecord}

/-- Columns that get to the reference first put no time into the order of two records with
    different references. -/
theorem order_untimed (h : referenceFirst s.columns = true) (hne : a.reference ≠ b.reference) :
    s.order a.untimed b.untimed = s.order a b := by
  obtain ⟨columns⟩ := s
  induction columns with
  | nil => cases h
  | cons column rest ih =>
    obtain ⟨key, d⟩ := column
    have hcons (x y : StoredRecord) : order ⟨⟨key, d⟩ :: rest⟩ x y =
        (d.apply (key.order x y)).then (order ⟨rest⟩ x y) := rfl
    rw [hcons, hcons]
    cases key with
    | recordedAt => cases h
    | consumedAt => cases h
    | reference =>
      -- The columns that follow are not looked at.
      have hcmp : d.apply (compare a.reference b.reference) ≠ .eq :=
        d.apply_ne_eq fun heq => hne (LawfulEqOrd.eq_of_compare heq)
      have hstop (later : Ordering) : (d.apply (compare a.reference b.reference)).then later =
          d.apply (compare a.reference b.reference) := by
        cases horder : d.apply (compare a.reference b.reference) with
        | eq => exact absurd horder hcmp
        | lt => rfl
        | gt => rfl
      exact (hstop _).trans (hstop _).symm
    | field path =>
      have hkey : (SortKey.field path).order a.untimed b.untimed =
          (SortKey.field path).order a b := by
        rw [SortKey.order, SortKey.order, FieldPath.read_untimed, FieldPath.read_untimed]
      rw [hkey, ih h]

/-- Arranged by such columns, records ascend with their times aside. -/
theorem untimed_arrange_ascending (h : referenceFirst s.columns = true)
    (hdistinct : (records.map StoredRecord.reference).Nodup) :
    ((s.arrange records).map StoredRecord.untimed).Pairwise fun a b => s.order a b = .lt := by
  rw [List.pairwise_map]
  have hcolumns := exists_reference_of_referenceFirst h
  refine ((arrange_ascending hcolumns hdistinct).and (arrange_distinct hdistinct)).imp
    fun {a b} hab => ?_
  rw [order_untimed h hab.2]
  exact hab.1

/-- Records that agree but for their times are put into the same order. -/
theorem arrange_untimed_eq (h : referenceFirst s.columns = true)
    (hperm : (records.map StoredRecord.untimed).Perm (others.map StoredRecord.untimed))
    (hdistinct : (records.map StoredRecord.reference).Nodup)
    (hdistinct' : (others.map StoredRecord.reference).Nodup) :
    (s.arrange records).map StoredRecord.untimed = (s.arrange others).map StoredRecord.untimed := by
  refine List.Perm.eq_of_pairwise (fun a b _ _ hab hba => ?_)
    (untimed_arrange_ascending h hdistinct) (untimed_arrange_ascending h hdistinct') ?_
  · -- No two records stand before each other.
    rw [s.order_swap, hba] at hab
    cases hab
  · calc (s.arrange records).map StoredRecord.untimed
      _ |>.Perm (records.map StoredRecord.untimed) := (s.arrange_perm records).map _
      _ |>.Perm (others.map StoredRecord.untimed) := hperm
      _ |>.Perm ((s.arrange others).map StoredRecord.untimed) :=
        ((s.arrange_perm others).map _).symm

end SortOrder

end LedgerQuery
