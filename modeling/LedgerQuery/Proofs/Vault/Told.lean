/-
  LedgerQuery.Proofs.Vault.Told

  What a journal tells of records, taken together. A record is told of as produced before it is
  told of as consumed, and in both places it is the version that the store holds, the status
  aside (`Remembers`). Criteria that leave the status aside therefore admit both or neither, which
  pairs what a tracker is told of the production of a record with what it is told of its
  consumption (`Remembers.consumed_iff`).
-/
import LedgerQuery.Proofs.Query.Status
import LedgerQuery.Proofs.Vault.Journal

namespace LedgerQuery

/-! ## One version -/

/-- Two records are the same version, the status aside. -/
def StoredRecord.SameVersion (a b : StoredRecord) : Prop :=
  a.withStatus b.status b.consumedAt = b

namespace StoredRecord.SameVersion

variable {a b : StoredRecord} {now : Instant} {inputs : List RecordRef}

theorem refl (a : StoredRecord) : a.SameVersion a := rfl

theorem reference_eq (h : a.SameVersion b) : a.reference = b.reference := by
  rw [← h]
  rfl

theorem admits_eq (h : a.SameVersion b) (c : Criteria) :
    c.admitsIgnoringStatus a = c.admitsIgnoringStatus b := by
  rw [← h]
  exact (c.admitsIgnoringStatus_withStatus a b.status b.consumedAt).symm

/-- Consuming records makes no other versions of them. -/
theorem mark (h : a.SameVersion b) : (Store.mark now inputs a).SameVersion b := by
  have hstatus : (Store.mark now inputs a).withStatus b.status b.consumedAt =
      a.withStatus b.status b.consumedAt := by
    unfold Store.mark
    split <;> rfl
  exact hstatus.trans h

end StoredRecord.SameVersion

namespace Vault

/-! ## Journals and stores -/

/-- The records that an entry tells of. -/
def Entry.told (e : Entry) : List StoredRecord := e.change.consumed ++ e.change.produced

/-- What a journal tells of the records of the store that it led to. -/
structure Remembers (log : List Entry) (s : Store) : Prop where
  recounts : Recounts log s
  /-- What is told of is recorded. -/
  recorded : ∀ e ∈ log, ∀ k ∈ e.told, ∃ r ∈ s.records, r.SameVersion k
  /-- At no time has more been consumed than produced. -/
  ordered : ∀ before, before <+: log → ∀ ref ∈ before.flatMap Entry.consumed,
    ref ∈ before.flatMap Entry.produced

variable {log : List Entry} {s s' : Store} {now : Instant} {relevant : List Party → Bool}
  {t : Transaction} {change : Update} {c : Criteria} {e : Entry} {r k : StoredRecord}

/-- What a journal has consumed it has produced, since both are references of the store. -/
theorem Recounts.produced_of_consumed (h : Recounts log s) {ref : RecordRef}
    (href : ref ∈ log.flatMap Entry.consumed) : ref ∈ log.flatMap Entry.produced := by
  rw [h.produced]
  obtain ⟨record, hrecord, rfl, -⟩ := (h.mem_consumed ref).1 href
  exact List.mem_map_of_mem hrecord

theorem Remembers.empty : Remembers [] .empty where
  recounts := .empty
  recorded _ he := nomatch he
  ordered before hbefore _ href := by
    rw [List.prefix_nil.1 hbefore] at href
    cases href

/-- A commit tells of records that it leaves in the store, and the others are kept there. -/
theorem Remembers.commit (h : Remembers log s) (hs : s.Indexed)
    (hc : s.Committed relevant now t change s') :
    Remembers (log ++ [Entry.mk t change]) s' := by
  have hrecounts := h.recounts.commit hs hc
  refine ⟨hrecounts, fun e he k hk => ?_, fun before hbefore ref href => ?_⟩
  · rcases List.mem_append.1 he with hold | hnew
    · obtain ⟨r, hr, hsame⟩ := h.recorded e hold k hk
      refine ⟨Store.mark now t.inputs r, ?_, hsame.mark⟩
      rw [hc.records_eq]
      exact List.mem_append_left _ (List.mem_map_of_mem hr)
    · -- The new entry tells of records as they are in the store after the commit.
      obtain rfl := List.mem_singleton.1 hnew
      rcases List.mem_append.1 hk with hconsumed | hproduced
      · exact ⟨k, (hc.of_mem_consumed hs hconsumed).2.1, .refl k⟩
      · refine ⟨k, ?_, .refl k⟩
        rw [hc.records_eq]
        rw [hc.change_eq] at hproduced
        exact List.mem_append_right _ hproduced
  · rcases List.prefix_concat_iff.1 hbefore with rfl | hbefore
    · exact hrecounts.produced_of_consumed href
    · exact h.ordered before hbefore ref href

/-! ## Production and consumption -/

/-- Criteria that leave the status aside admit all that is told of one record, or nothing. -/
theorem Remembers.admits_eq (h : Remembers log s) (hs : s.Indexed) {e e' : Entry} (he : e ∈ log)
    (he' : e' ∈ log) (hr : r ∈ e.told) (hk : k ∈ e'.told) (href : r.reference = k.reference) :
    c.admitsIgnoringStatus r = c.admitsIgnoringStatus k := by
  obtain ⟨a, ha, hsame⟩ := h.recorded e he r hr
  obtain ⟨b, hb, hsame'⟩ := h.recorded e' he' k hk
  -- Both are versions of the one record with the reference.
  have hab : a = b := hs.eq_of_reference_eq ha hb (by
    rw [hsame.reference_eq, href, hsame'.reference_eq])
  rw [← hsame.admits_eq, hab, hsame'.admits_eq]

/-- What is consumed of the records that a later part of the journal has produced is consumed
    there, since each is produced once and not consumed before. -/
theorem Remembers.mem_consumed_drop (h : Remembers log s) (hs : s.Indexed) {since : Nat}
    {ref : RecordRef} (hproduced : ref ∈ (log.drop since).flatMap Entry.produced)
    (hconsumed : ref ∈ log.flatMap Entry.consumed) :
    ref ∈ (log.drop since).flatMap Entry.consumed := by
  rw [← List.take_append_drop since log, List.flatMap_append] at hconsumed
  rcases List.mem_append.1 hconsumed with hearlier | hlater
  · have hbefore := h.ordered _ (List.take_prefix since log) ref hearlier
    have hnodup : (log.flatMap Entry.produced).Nodup := by
      rw [h.recounts.produced]
      exact hs.nodup
    rw [← List.take_append_drop since log, List.flatMap_append] at hnodup
    exact absurd hproduced (fun hmem => (List.nodup_append.1 hnodup).2.2 ref hbefore ref hmem rfl)
  · exact hlater

/-- Of a record that a later part of the journal has produced, criteria are told of its
    consumption there exactly if it is consumed and they are told of its production. -/
theorem Remembers.consumed_iff (h : Remembers log s) (hs : s.Indexed) {since : Nat}
    (he : e ∈ log.drop since) (hr : r ∈ e.change.produced) :
    (∃ e' ∈ log.drop since, r.reference ∈
        (e'.change.restrict c.admitsIgnoringStatus).consumed.map StoredRecord.reference) ↔
      (∃ current ∈ s.records, current.reference = r.reference ∧ current.status = .consumed) ∧
        ∃ e' ∈ log.drop since, r ∈ (e'.change.restrict c.admitsIgnoringStatus).produced := by
  have hlog : ∀ {e' : Entry}, e' ∈ log.drop since → e' ∈ log := List.mem_of_mem_drop
  -- Criteria look at the same record when it is produced and when it is consumed, status aside.
  constructor
  · rintro ⟨e', he', hconsumed⟩
    obtain ⟨k, hk, href⟩ := List.mem_map.1 hconsumed
    obtain ⟨hmem, hadmits⟩ := Update.mem_consumed_restrict.1 hk
    have hsame : c.admitsIgnoringStatus r = c.admitsIgnoringStatus k :=
      h.admits_eq hs (hlog he) (hlog he') (List.mem_append_right _ hr)
        (List.mem_append_left _ hmem) href.symm
    refine ⟨?_, e, he, Update.mem_produced_restrict.2 ⟨hr, hsame.trans hadmits⟩⟩
    rw [← h.recounts.mem_consumed]
    exact List.mem_flatMap.2 ⟨e', hlog he', List.mem_map.2 ⟨k, hmem, href⟩⟩
  · rintro ⟨hstatus, e'', he'', hsent⟩
    have hadmits : c.admitsIgnoringStatus r = true := (Update.mem_produced_restrict.1 hsent).2
    have hproduced : r.reference ∈ (log.drop since).flatMap Entry.produced :=
      List.mem_flatMap.2 ⟨e, he, List.mem_map_of_mem hr⟩
    have hconsumed := h.mem_consumed_drop hs hproduced ((h.recounts.mem_consumed _).2 hstatus)
    obtain ⟨e', he', hmem⟩ := List.mem_flatMap.1 hconsumed
    obtain ⟨k, hk, href⟩ := List.mem_map.1 hmem
    have hsame : c.admitsIgnoringStatus r = c.admitsIgnoringStatus k :=
      h.admits_eq hs (hlog he) (hlog he') (List.mem_append_right _ hr)
        (List.mem_append_left _ hk) href.symm
    exact ⟨e', he', List.mem_map.2
      ⟨k, Update.mem_consumed_restrict.2 ⟨hk, hsame ▸ hadmits⟩, href⟩⟩

end Vault

end LedgerQuery
