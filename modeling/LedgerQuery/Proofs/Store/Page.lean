/-
  LedgerQuery.Proofs.Store.Page

  What a page of a store holds. All pages of a query are cut out of one list, `Store.select`; a
  page is a stretch of it whose place and length are those of the page number and the page size
  (`page_records`), with no wrapping of machine words in between. In the order of references that
  list is strictly ascending, since no two records share a reference (`select_ascending`).
-/
import LedgerQuery.Proofs.Query.Sorting
import LedgerQuery.Proofs.Store.Commit

namespace LedgerQuery

/-! ## Page numbers -/

namespace PageSpec

variable {p : PageSpec}

theorem number_pos (p : PageSpec) : 0 < p.number.toNat :=
  Nat.pos_of_ne_zero fun hzero => p.number_ne_zero (UInt32.toNat_inj.1 hzero)

theorem size_pos (p : PageSpec) : 0 < p.size.toNat :=
  Nat.pos_of_ne_zero fun hzero => p.size_ne_zero (UInt32.toNat_inj.1 hzero)

/-- The offset is a product of two 32-bit words, which fits into 64 bits. -/
theorem toNat_offset (p : PageSpec) : p.offset.toNat = (p.number.toNat - 1) * p.size.toNat := by
  have hone : (1 : UInt32) ≤ p.number := UInt32.le_iff_toNat_le.2 p.number_pos
  have hbefore : (p.number - 1).toNat = p.number.toNat - 1 := UInt32.toNat_sub_of_le _ _ hone
  have hfits : (p.number.toNat - 1) * p.size.toNat < 2 ^ 64 := by
    have hnumber : p.number.toNat - 1 < 2 ^ 32 := by have := p.number.toNat_lt; omega
    have hproduct := Nat.mul_lt_mul'' hnumber p.size.toNat_lt
    omega
  rw [offset, UInt64.toNat_mul, UInt32.toNat_toUInt64, UInt32.toNat_toUInt64, hbefore,
    Nat.mod_eq_of_lt hfits]

theorem size_next (p : PageSpec) : p.next.size = p.size := by
  unfold next
  split <;> rfl

/-- The number grows by one, but for the last page. -/
theorem toNat_number_next (h : p.number ≠ lastNumber) :
    p.next.number.toNat = p.number.toNat + 1 := by
  have hlast : p.number.toNat ≠ 4294967295 := fun heq => h (UInt32.toNat_inj.1 heq)
  have hlt := p.number.toNat_lt
  simp only [next, h, ↓reduceDIte, UInt32.toNat_add]
  rw [show (1 : UInt32).toNat = 1 from rfl, Nat.mod_eq_of_lt (by omega)]

end PageSpec

/-! ## Selections -/

namespace Store

variable {s : Store} {q : Query} {r : StoredRecord}

/-- A selection holds the records that the criteria admit, in some order. -/
theorem select_perm (s : Store) (q : Query) :
    (s.select q).Perm (s.records.filter q.criteria.admits) := q.sort.arrange_perm _

theorem mem_select : r ∈ s.select q ↔ r ∈ s.records ∧ q.criteria.admits r = true := by
  rw [(s.select_perm q).mem_iff, List.mem_filter]

theorem select_unsorted (h : q.sort.isUnsorted) :
    s.select q = s.records.filter q.criteria.admits := if_pos h

/-- The selection does not depend on the page that is asked for. -/
theorem select_page (s : Store) (b : Builder) (p : PageSpec) :
    s.select (b.page p).build = s.select b.build := rfl

/-! ## Pages -/

/-- A page is the stretch of the selection that its number and size tell. -/
theorem page_records (s : Store) (q : Query) :
    (s.page q).records =
      ((s.select q).drop ((q.paging.number.toNat - 1) * q.paging.size.toNat)).take
        q.paging.size.toNat := by
  rw [page, PageSpec.toNat_offset]

/-- A first page that is large enough holds the whole selection. -/
theorem page_of_le (hnumber : q.paging.number = 1)
    (hsize : (s.select q).length ≤ q.paging.size.toNat) :
    s.page q = ⟨s.select q, UInt64.ofNat (s.select q).length⟩ := by
  have hoffset : q.paging.offset.toNat = 0 := by
    rw [PageSpec.toNat_offset, hnumber, show (1 : UInt32).toNat - 1 = 0 from rfl, Nat.zero_mul]
  rw [page, hoffset, List.drop_zero, List.take_of_length_le hsize]

/-- A page holds records of the store. -/
theorem mem_of_mem_page (h : r ∈ (s.page q).records) : r ∈ s.records := by
  rw [page_records] at h
  exact (mem_select.1 (List.mem_of_mem_drop (List.mem_of_mem_take h))).1

/-! ## The order of references -/

/-- In ascending order of references, each record has a greater reference than the one before. -/
theorem select_ascending (hs : s.Indexed) (h : q.sort = .on .reference .ascending) :
    (s.select q).Pairwise fun a b => compare a.reference b.reference = .lt := by
  have horder (a b : StoredRecord) : q.sort.order a b = compare a.reference b.reference := by
    rw [h]
    simp [SortOrder.order, SortOrder.on, Direction.apply, SortKey.order]
  have hcolumns : ∃ c ∈ q.sort.columns, c.key = .reference := by
    rw [h]
    exact ⟨_, List.mem_singleton_self _, rfl⟩
  refine (SortOrder.arrange_ascending hcolumns (hs.nodup_filter _)).imp fun {a b} hlt => ?_
  rwa [horder] at hlt

end Store

end LedgerQuery
