/-
  LedgerQuery.Proofs.Store.Sound

  What holds of every store that transactions have built: the index is exact, records belong to
  transactions that were noted, a record carries the time of its consumption exactly when it is
  consumed, and back links lead to smaller slots. A commit keeps all of it (`Sound.commit`).
  References stay distinct because the transaction is new, and back links point down because the
  predecessors are looked up before the outputs are put in.
-/
import LedgerQuery.Proofs.Store.Commit

namespace LedgerQuery.Store

variable {s s' : Store} {now : Instant} {relevant : List Party → Bool} {t : Transaction}
  {change : Update}

/-- The invariant of a store. -/
structure Sound (s : Store) : Prop where
  indexed : s.Indexed
  owned : ∀ record ∈ s.records, record.reference.transaction ∈ s.transactions
  stamped : ∀ record ∈ s.records, record.status = .consumed ↔ record.consumedAt.isSome
  linked : ∀ slot record back, s.records[slot]? = some record → record.back = some back →
    ∃ earlier, earlier < slot ∧ s.slot? back = some earlier

theorem Sound.empty : Sound .empty where
  indexed r slot := by simp [Store.empty, slot?]
  owned _ h := nomatch h
  stamped _ h := nomatch h
  linked slot record back h := by simp [Store.empty] at h

/-! ## New references -/

/-- No output of a new transaction has a reference that is recorded. -/
theorem Sound.slot?_eq_none_of_produced (hs : s.Sound) (hfresh : t.id ∉ s.transactions)
    {r : StoredRecord} (hr : r ∈ producedBy relevant now t) : s.slot? r.reference = none := by
  rw [hs.indexed.slot?_eq_none_iff]
  intro record hmem heq
  have howned := hs.owned record hmem
  rw [heq, (of_mem_producedBy hr).1] at howned
  exact hfresh howned

/-- A store with the same index and the same references is indexed as well. -/
theorem Indexed.of_eq (hs : s.Indexed) (hslots : s'.slots = s.slots)
    (hrecords : s'.records = s.records) : s'.Indexed := by
  intro r slot
  rw [slot?, hslots, hrecords]
  exact hs r slot

theorem Committed.indexed (h : Committed relevant now t s change s') (hs : s.Sound)
    (hsize : t.outputs.length ≤ UInt32.size) : s'.Indexed := by
  have hmarked : (s.marked now t.inputs).Indexed := hs.indexed.marked t.inputs
  -- Every recorded reference belongs to a transaction that was noted, and this one was not.
  have hnew : ∀ r ∈ producedBy relevant now t, (s.marked now t.inputs).slot? r.reference = none :=
    fun r hr => hs.slot?_eq_none_of_produced h.accepts.fresh hr
  refine (hmarked.foldl_append hnew (nodup_producedBy hsize)).of_eq h.slots_eq ?_
  rw [h.records_eq, foldl_append_records]
  rfl

/-- A reference keeps its slot. -/
theorem Committed.slot?_of_some (h : Committed relevant now t s change s') (hs : s.Indexed)
    (hs' : s'.Indexed) {r : RecordRef} {slot : Nat} (hr : s.slot? r = some slot) :
    s'.slot? r = some slot := by
  rw [hs] at hr
  rw [hs', ← List.getElem?_map, h.references_eq]
  rw [← List.getElem?_map] at hr
  obtain ⟨hlt, -⟩ := List.getElem?_eq_some_iff.1 hr
  rw [List.getElem?_append_left hlt, hr]

/-! ## Committing -/

/-- A record of the store after a commit is one from before, perhaps consumed, in its slot, or
    one that the transaction produced. -/
theorem Committed.of_getElem? (h : Committed relevant now t s change s') {slot : Nat}
    {record : StoredRecord} (hr : s'.records[slot]? = some record) :
    (∃ old, s.records[slot]? = some old ∧ record = mark now t.inputs old) ∨
      (s.records.length ≤ slot ∧ record ∈ producedBy relevant now t) := by
  rw [h.records_eq] at hr
  by_cases hlt : slot < s.records.length
  · rw [List.getElem?_append_left (by rw [List.length_map]; exact hlt), List.getElem?_map] at hr
    obtain ⟨old, hold, rfl⟩ := Option.map_eq_some_iff.1 hr
    exact .inl ⟨old, hold, rfl⟩
  · rw [List.getElem?_append_right (by rw [List.length_map]; omega)] at hr
    exact .inr ⟨by omega, List.mem_of_getElem? hr⟩

theorem Committed.of_mem (h : Committed relevant now t s change s') {record : StoredRecord}
    (hr : record ∈ s'.records) :
    (∃ old ∈ s.records, record = mark now t.inputs old) ∨ record ∈ producedBy relevant now t := by
  obtain ⟨slot, hslot⟩ := List.mem_iff_getElem?.1 hr
  rcases h.of_getElem? hslot with ⟨old, hold, rfl⟩ | ⟨-, hnew⟩
  · exact .inl ⟨old, List.mem_of_getElem? hold, rfl⟩
  · exact .inr hnew

theorem mark_stamped {inputs : List RecordRef} {r : StoredRecord}
    (h : r.status = .consumed ↔ r.consumedAt.isSome) :
    (mark now inputs r).status = .consumed ↔ (mark now inputs r).consumedAt.isSome := by
  unfold mark
  split
  · simp [consumed]
  · exact h

/-- A commit keeps the invariant. -/
theorem Sound.commit (hs : s.Sound) (hsize : t.outputs.length ≤ UInt32.size)
    (h : s.commit relevant now t = .ok (change, s')) : s'.Sound := by
  have hc := hs.indexed.committed h
  have hindexed := hc.indexed hs hsize
  refine ⟨hindexed, ?_, ?_, ?_⟩
  · intro record hmem
    rw [hc.transactions_eq]
    rcases hc.of_mem hmem with ⟨old, hold, rfl⟩ | hnew
    · rw [mark_reference]
      exact List.mem_cons_of_mem _ (hs.owned old hold)
    · rw [(of_mem_producedBy hnew).1]
      exact List.mem_cons_self
  · intro record hmem
    rcases hc.of_mem hmem with ⟨old, hold, rfl⟩ | hnew
    · exact mark_stamped (hs.stamped old hold)
    · obtain ⟨-, hstatus, hat, -⟩ := of_mem_producedBy hnew
      rw [hstatus, hat]
      simp
  · intro slot record back hslot hback
    rcases hc.of_getElem? hslot with ⟨old, hold, rfl⟩ | ⟨hlate, hnew⟩
    · -- An old link stays, since references keep their slots.
      rw [mark_back] at hback
      obtain ⟨earlier, hlt, hearlier⟩ := hs.linked slot old back hold hback
      exact ⟨earlier, hlt, hc.slot?_of_some hs.indexed hindexed hearlier⟩
    · -- The predecessor was recorded before the outputs, so its slot is below all of theirs.
      obtain ⟨-, -, -, o, ho, hoback⟩ := of_mem_producedBy hnew
      obtain ⟨earlier, hearlier⟩ :=
        Option.isSome_iff_exists.1 (hc.accepts.linked o ho back (hoback ▸ hback))
      obtain ⟨found, hfound, -⟩ := Option.map_eq_some_iff.1 ((hs.indexed back earlier).1 hearlier)
      obtain ⟨hlt, -⟩ := List.getElem?_eq_some_iff.1 hfound
      exact ⟨earlier, by omega, hc.slot?_of_some hs.indexed hindexed hearlier⟩

end LedgerQuery.Store
