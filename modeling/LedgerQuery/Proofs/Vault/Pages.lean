/-
  LedgerQuery.Proofs.Vault.Pages

  The pages of a query. Whatever page is asked for, it is cut out of one list: the records that the
  criteria admit, arranged by the columns of the query. The list is sorted throughout, it keeps
  records that the columns do not tell apart in the order they were committed in, and it is the same
  for all page numbers and sizes; so a walk through the pages meets every record once
  (`Store.pages_onward`). Main statement: `pages_slice_selection`.
-/
import LedgerQuery.Proofs.Query.Sorting
import LedgerQuery.Proofs.Service.View
import LedgerQuery.Proofs.Store.Page
import LedgerQuery.Proofs.Vault.History

namespace LedgerQuery

/-! ## Walking through pages -/

/-- A page and those after it, as many as asked for. -/
def PageSpec.onward (p : PageSpec) : (count : Nat) → List PageSpec
  | 0 => []
  | count + 1 => p :: p.next.onward count

namespace PageSpec

variable {p q : PageSpec} {count : Nat}

/-- A page with two numbers left, its own and another one, is not the last. -/
theorem ne_lastNumber (hroom : p.number.toNat + (count + 2) ≤ UInt32.size) :
    p.number ≠ lastNumber := by
  intro heq
  rw [heq] at hroom
  have hsize : UInt32.size = 4294967296 := rfl
  have hlargest : lastNumber.toNat = 4294967295 := rfl
  omega

/-- The numbers of the pages of a walk count on from that of the first, unless they run out. -/
theorem numbers_onward (p : PageSpec) (count : Nat)
    (hroom : p.number.toNat + count ≤ UInt32.size) :
    (p.onward count).map (fun q => q.number.toNat) = List.range' p.number.toNat count := by
  induction count generalizing p with
  | zero => rfl
  | succ count ih =>
    rw [onward, List.map_cons, List.range'_succ]
    cases count with
    | zero => rfl
    | succ count =>
      have hnext := toNat_number_next (ne_lastNumber hroom)
      rw [ih p.next (by omega), hnext]

/-- All pages of a walk have the size of the first. -/
theorem size_of_mem_onward (h : q ∈ p.onward count) : q.size = p.size := by
  induction count generalizing p with
  | zero => cases h
  | succ count ih =>
    rcases List.mem_cons.1 h with rfl | hlater
    · rfl
    · rw [ih hlater, size_next]

end PageSpec

namespace Store

variable {s : Store} {c : Criteria} {sort : SortOrder}

/-- What the pages of a walk hold, one after the other, is a stretch of the selection: a walk of so
    many pages starts where its first page does and misses nothing. The page numbers must not run
    out on the way. -/
theorem pages_onward (s : Store) (c : Criteria) (sort : SortOrder) (p : PageSpec) (count : Nat)
    (hroom : p.number.toNat + count ≤ UInt32.size) :
    ((p.onward count).flatMap fun p => (s.page ⟨c, p, sort⟩).records) =
      ((s.select ⟨c, p, sort⟩).drop ((p.number.toNat - 1) * p.size.toNat)).take
        (count * p.size.toNat) := by
  induction count generalizing p with
  | zero => simp [PageSpec.onward]
  | succ count ih =>
    rw [PageSpec.onward, List.flatMap_cons, page_records]
    cases count with
    | zero => simp [PageSpec.onward]
    | succ count =>
      have hnext := PageSpec.toNat_number_next (PageSpec.ne_lastNumber hroom)
      have hpos := p.number_pos
      rw [ih p.next (by omega), hnext, p.size_next]
      -- This page ends where the rest of the walk starts.
      have hplace : (p.number.toNat + 1 - 1) * p.size.toNat =
          (p.number.toNat - 1) * p.size.toNat + p.size.toNat := by
        rw [← Nat.succ_mul]
        congr 1
        omega
      have hcount : (count + 1 + 1) * p.size.toNat = p.size.toNat + (count + 1) * p.size.toNat := by
        rw [Nat.succ_mul (count + 1), Nat.add_comm]
      show (List.drop _ (s.select ⟨c, p, sort⟩)).take _ ++
        (List.drop _ (s.select ⟨c, p, sort⟩)).take _ = _
      rw [hplace, hcount, List.take_add, List.drop_drop]

end Store

namespace Vault

variable {v : Vault} {c : Criteria} {sort : SortOrder} {p : PageSpec}

/-- A page of the size that the vault allows is answered with a stretch of the selection. -/
theorem query_eq_ok (h : p.size ≤ v.config.maxPageSize) :
    v.query ⟨c, p, sort⟩ = .ok
      ⟨((v.store.select ⟨c, p, sort⟩).drop ((p.number.toNat - 1) * p.size.toNat)).take p.size.toNat,
        UInt64.ofNat (v.store.select ⟨c, p, sort⟩).length⟩ := by
  rw [query_of_le h, ← Store.page_records v.store ⟨c, p, sort⟩]
  rfl

/-- All pages of a walk are answered if their size is allowed. -/
theorem queries_onward (h : p.size ≤ v.config.maxPageSize) (count : Nat) :
    (p.onward count).mapM (fun p => v.query ⟨c, p, sort⟩) =
      .ok ((p.onward count).map fun p => v.store.page ⟨c, p, sort⟩) := by
  rw [mapM_eq_ok_iff, List.forall₂_map_right_iff, List.forall₂_same]
  intro q hq
  exact query_of_le (PageSpec.size_of_mem_onward hq ▸ h)

/-- The pages of a query are stretches of one list. The list holds the records that the criteria
    admit, each once; it never descends in the order of the columns, and it keeps records that the
    columns do not tell apart in the order they were committed in, which is all of them if there
    are no columns. Every page of an allowed size is answered with the stretch that its number and
    size tell, which is empty behind the end, and with the length of the list; a larger page is
    refused. A walk from the first page on goes along the list, and through all of it if it has
    enough pages. -/
theorem pages_slice_selection (v : Vault) (hv : v.Reachable) (c : Criteria) (sort : SortOrder) :
    ∃ sorted : List StoredRecord,
      sorted.Perm (v.store.records.filter c.admits) ∧
      (sorted.map StoredRecord.reference).Nodup ∧
      sorted.Pairwise (fun a b => sort.order a b ≠ .gt) ∧
      (∀ ties : List StoredRecord, ties.Sublist (v.store.records.filter c.admits) →
        ties.Pairwise (fun a b => sort.order a b = .eq) → ties.Sublist sorted) ∧
      (sort.isUnsorted = true → sorted = v.store.records.filter c.admits) ∧
      ∀ p : PageSpec,
        p.offset.toNat = (p.number.toNat - 1) * p.size.toNat ∧
        (v.config.maxPageSize < p.size →
          v.query ⟨c, p, sort⟩ = .error (.pageTooLarge p.size v.config.maxPageSize)) ∧
        (p.size ≤ v.config.maxPageSize →
          v.query ⟨c, p, sort⟩ = .ok
            ⟨(sorted.drop ((p.number.toNat - 1) * p.size.toNat)).take p.size.toNat,
              UInt64.ofNat sorted.length⟩ ∧
          (sorted.length ≤ (p.number.toNat - 1) * p.size.toNat →
            v.query ⟨c, p, sort⟩ = .ok ⟨[], UInt64.ofNat sorted.length⟩) ∧
          ∀ count, p.number = 1 → count < UInt32.size → ∃ pages,
            (p.onward count).map (fun q => q.number.toNat) = List.range' 1 count ∧
            (p.onward count).mapM (fun p => v.query ⟨c, p, sort⟩) = .ok pages ∧
            pages.flatMap Page.records = sorted.take (count * p.size.toNat) ∧
            (sorted.length ≤ count * p.size.toNat → pages.flatMap Page.records = sorted)) := by
  -- The page plays no part in the selection; any will do to write it down.
  let sorted := sort.arrange (v.store.records.filter c.admits)
  have hselect : ∀ p, v.store.select ⟨c, p, sort⟩ = sorted := fun _ => rfl
  have hperm : sorted.Perm (v.store.records.filter c.admits) := sort.arrange_perm _
  refine ⟨sorted, hperm, ?_, ?_, ?_, fun hunsorted => if_pos hunsorted, fun p => ⟨p.toNat_offset,
    fun hlarge => if_pos hlarge, fun hsize => ⟨?_, fun hend => ?_, fun count hfirst hroom => ?_⟩⟩⟩
  · exact (hperm.map _).nodup_iff.2 (hv.sound.indexed.nodup_filter _)
  · refine (sort.arrange_pairwise _).imp fun {a b} hle hgt => ?_
    rw [hgt] at hle
    cases hle
  · intro ties hties hequal
    refine SortOrder.arrange_sublist (hequal.imp fun {a b} heq => ?_) hties
    rw [heq]
    rfl
  · exact query_eq_ok hsize
  · rw [query_eq_ok hsize, hselect, List.drop_eq_nil_of_le hend, List.take_nil]
  · have hone : p.number.toNat = 1 := by rw [hfirst]; rfl
    have hnumbers := p.numbers_onward count (by omega)
    have hpages : ((p.onward count).map fun p => v.store.page ⟨c, p, sort⟩).flatMap Page.records =
        sorted.take (count * p.size.toNat) := by
      rw [List.flatMap_map, Store.pages_onward _ _ _ _ _ (by omega), hone, Nat.sub_self,
        Nat.zero_mul, List.drop_zero, hselect]
    rw [hone] at hnumbers
    refine ⟨_, hnumbers, queries_onward hsize count, hpages, fun henough => ?_⟩
    rw [hpages, List.take_of_length_le henough]

/-- Three versions, of which two were consumed at the same time, in pages of two by that time. Two
    pages hold all of them, the third is empty, and pages of three are refused. -/
theorem pages_slice_selection_consumedTogether :
    let v := (recordAll { config := { maxPageSize := 2 } } passedOnTwice).1
    let first : PageSpec := ⟨1, 2, by decide, by decide⟩
    let query (p : PageSpec) : Query := ⟨.forType .any .all, p, .on .consumedAt .ascending⟩
    v.Reachable ∧ ∃ (sorted : List StoredRecord) (pages : List (Page StoredRecord)),
      sorted.length = 3 ∧ (v.store.records.take 2).Sublist sorted ∧
      (first.onward 2).mapM (fun p => v.query (query p)) = .ok pages ∧
      pages.flatMap Page.records = sorted ∧
      v.query (query ⟨3, 2, by decide, by decide⟩) = .ok ⟨[], 3⟩ ∧
      v.query (query ⟨1, 3, by decide, by decide⟩) = .error (.pageTooLarge 3 2) := by
  intro v first query
  have hreachable : v.Reachable := .recordAll { maxPageSize := 2 } (by decide)
  have hadmitted : v.store.records.filter (Criteria.forType .any .all).admits = v.store.records :=
    List.filter_eq_self.2 (by decide)
  obtain ⟨sorted, hperm, -, -, hties, -, hpages⟩ :=
    pages_slice_selection v hreachable (.forType .any .all) (.on .consumedAt .ascending)
  have hlength : sorted.length = 3 := by
    rw [hperm.length_eq]
    decide
  have hkept : (v.store.records.take 2).Sublist sorted :=
    hties _ (hadmitted.symm ▸ List.take_sublist 2 _) (by decide)
  obtain ⟨-, -, hanswered⟩ := hpages first
  obtain ⟨pages, -, hwalk, -, hall⟩ := (hanswered (by decide)).2.2 2 rfl (by decide)
  obtain ⟨-, -, hbehind⟩ := hpages ⟨3, 2, by decide, by decide⟩
  obtain ⟨-, hlarge, -⟩ := hpages ⟨1, 3, by decide, by decide⟩
  have hthird := (hbehind (by decide)).2.1 (by rw [hlength]; decide)
  rw [hlength] at hthird
  exact ⟨hreachable, sorted, pages, hlength, hkept, hwalk, hall (by rw [hlength]; decide), hthird,
    hlarge (by decide)⟩

end Vault

end LedgerQuery
