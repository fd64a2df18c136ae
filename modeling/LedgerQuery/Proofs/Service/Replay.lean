/-
  LedgerQuery.Proofs.Service.Replay

  Keeping a list of views up to date by notifications: a record that is produced goes to the end,
  and one that is consumed takes the place of its former version. Main result of this module:
  `exists_replay`, by which the notifications of a commit turn the views of the records that
  criteria admit before it, in the order of their slots, into the views of those they admit
  afterwards.
-/
import LedgerQuery.Proofs.Query.Status
import LedgerQuery.Proofs.Service.View
import LedgerQuery.Proofs.Store.Sound
import LedgerQuery.Service.Notification

namespace LedgerQuery

variable {α : Type} [RecordState α] {r : StoredRecord} {v : Versioned α} {now : Instant}

/-! ## Views of consumed records -/

/-- Consuming a record changes nothing that its view is made of but the status. -/
theorem view_consumed (now : Instant) (r : StoredRecord) :
    (Store.consumed now r).view α =
      (r.view α).map fun v => { v with status := .consumed, consumedAt := some now } := by
  have hassign : (Store.consumed now r).isAssignableTo = r.isAssignableTo := rfl
  have hpayload : (Store.consumed now r).payload = r.payload := rfl
  simp only [StoredRecord.view, hassign, hpayload]
  split
  · cases (ofJson? r.payload : Option α) <;> rfl
  · rfl

theorem exists_view_consumed_iff :
    (∃ v : Versioned α, (Store.consumed now r).view α = .ok v) ↔
      ∃ v : Versioned α, r.view α = .ok v := by
  rw [view_consumed]
  cases r.view α <;> simp [Except.map]

theorem exists_view_mark_iff {inputs : List RecordRef} :
    (∃ v : Versioned α, (Store.mark now inputs r).view α = .ok v) ↔
      ∃ v : Versioned α, r.view α = .ok v := by
  unfold Store.mark
  split
  · exact exists_view_consumed_iff
  · rfl

/-- Whether criteria admit a record, its status aside, does not change when it is consumed. -/
theorem Criteria.admitsIgnoringStatus_mark (c : Criteria) (inputs : List RecordRef)
    (r : StoredRecord) :
    c.admitsIgnoringStatus (Store.mark now inputs r) = c.admitsIgnoringStatus r := by
  unfold Store.mark
  split
  · exact c.admitsIgnoringStatus_withStatus r .consumed (some now)
  · rfl

/-! ## Notifications -/

namespace Notification

variable {records consumed produced : List StoredRecord} {views cs ps : List (Versioned α)}

theorem ofRecords_of_views {status : RecordStatus} {transaction : TransactionId}
    (h : Views records views) :
    ofRecords α status transaction records =
      .ok (views.map fun v => ⟨v, status, transaction⟩) := by
  have hall : records.filter (fun r => r.isAssignableTo (RecordState.recordType α)) = records := by
    refine List.filter_eq_self.2 fun r hr => ?_
    obtain ⟨i, hi, rfl⟩ := List.mem_iff_getElem.1 hr
    exact isAssignableTo_of_view (h.get hi (h.length_eq ▸ hi))
  have hnotices : records.mapM (fun r =>
      (r.view α).map fun v => Notification.mk v status transaction) =
        .ok (views.map fun v => ⟨v, status, transaction⟩) := by
    refine mapM_eq_ok_iff.2 (List.forall₂_map_right_iff.2 (h.imp fun r v hv => ?_))
    rw [hv]
    rfl
  simp only [ofRecords, hall, hnotices]
  rfl

/-- A subscriber to any status is told of all records of a change, those consumed first. -/
theorem ofUpdate_of_views {u : Update} (hconsumed : Views u.consumed cs)
    (hproduced : Views u.produced ps) :
    ofUpdate α .all u = .ok (cs.map (fun v => ⟨v, .consumed, u.transaction⟩) ++
      ps.map fun v => ⟨v, .unconsumed, u.transaction⟩) := by
  simp only [ofUpdate, reduceCtorEq, ↓reduceIte, ofRecords_of_views hconsumed,
    ofRecords_of_views hproduced]
  rfl

/-- Of a change that is empty nothing is told. -/
theorem ofUpdate_of_isEmpty {u : Update} (h : u.isEmpty = true) : ofUpdate α .all u = .ok [] := by
  obtain ⟨hconsumed, hproduced⟩ := Bool.and_eq_true_iff.1 h
  have hcs : Views u.consumed ([] : List (Versioned α)) := List.isEmpty_iff.1 hconsumed ▸ .nil
  have hps : Views u.produced ([] : List (Versioned α)) := List.isEmpty_iff.1 hproduced ▸ .nil
  exact ofUpdate_of_views hcs hps

/-- What a notification does to a list of views: a new record goes to the end, a consumed one
    replaces the version with its reference. -/
def applyTo (kept : List (Versioned α)) (n : Notification α) : List (Versioned α) :=
  match n.status with
  | .unconsumed => kept ++ [n.record]
  | .consumed => kept.map fun v => if v.reference = n.record.reference then n.record else v

omit [RecordState α] in
theorem foldl_applyTo_produced (kept views : List (Versioned α)) (transaction : TransactionId) :
    (views.map fun v => (⟨v, .unconsumed, transaction⟩ : Notification α)).foldl applyTo kept =
      kept ++ views := by
  induction views generalizing kept with
  | nil => exact (List.append_nil kept).symm
  | cons v rest ih =>
    rw [List.map_cons, List.foldl_cons, ih]
    exact List.append_assoc kept [v] rest

/-- Replacing by the consumed versions of records marks these. The replacement for a record has to
    be what the record becomes when it is consumed. -/
theorem foldl_applyTo_consumed {kept : List (Versioned α)} {transaction : TransactionId}
    (hconsumed : Views consumed cs) (hkept : Views records kept)
    (hsame : ∀ k ∈ consumed, ∀ r ∈ records, r.reference = k.reference → Store.consumed now r = k) :
    Views (records.map (Store.mark now (consumed.map StoredRecord.reference)))
      ((cs.map fun v => (⟨v, .consumed, transaction⟩ : Notification α)).foldl applyTo kept) := by
  induction hconsumed generalizing records kept with
  | nil =>
    have hnone : records.map (Store.mark now []) = records.map id :=
      List.map_congr_left fun r _ => by simp [Store.mark]
    rw [List.map_nil, hnone, List.map_id]
    exact hkept
  | @cons k w consumed cs hw _ ih =>
    -- One replacement marks one reference; the others are replaced in a list that is marked so.
    have hone : Views (records.map (Store.mark now [k.reference]))
        (kept.map fun v => if v.reference = w.reference then w else v) := by
      refine List.forall₂_map_left_iff.2 (List.forall₂_map_right_iff.2 ?_)
      refine List.forall₂_iff_get.2 ⟨hkept.length_eq, fun i hi hi' => ?_⟩
      have hview := hkept.get hi hi'
      have href := reference_of_view hview
      rw [href, reference_of_view hw, Store.mark]
      by_cases hk : (records.get ⟨i, hi⟩).reference = k.reference
      · rw [if_pos (List.mem_singleton.2 hk), if_pos hk,
          hsame k List.mem_cons_self _ (List.get_mem records _) hk]
        exact hw
      · rw [if_neg fun hmem => hk (List.mem_singleton.1 hmem), if_neg hk]
        exact hview
    have hrest := ih hone fun k' hk' r hr href => by
      obtain ⟨old, hold, rfl⟩ := List.mem_map.1 hr
      rw [Store.mark_reference] at href
      rw [Store.consumed_mark]
      exact hsame k' (List.mem_cons_of_mem _ hk') old hold href
    have hmarks : (records.map (Store.mark now [k.reference])).map
        (Store.mark now (consumed.map StoredRecord.reference)) =
        records.map (Store.mark now ((k :: consumed).map StoredRecord.reference)) := by
      rw [List.map_map]
      exact List.map_congr_left fun r _ => Store.mark_mark _ _ r
    rw [hmarks] at hrest
    exact hrest

end Notification

/-! ## Commits -/

section Commit

open Notification

variable {s s' : Store} {relevant : List Party → Bool} {t : Transaction} {change : Update}
  {c : Criteria} {kept : List (Versioned α)}

/-- The records that criteria admit after a commit are those from before, the inputs consumed, and
    those of the new ones that they admit. -/
theorem Store.Committed.filter_records (h : Store.Committed relevant now t s change s')
    (c : Criteria) :
    s'.records.filter c.admitsIgnoringStatus =
      (s.records.filter c.admitsIgnoringStatus).map (Store.mark now t.inputs) ++
        (Store.producedBy relevant now t).filter c.admitsIgnoringStatus := by
  have hblind : c.admitsIgnoringStatus ∘ Store.mark now t.inputs = c.admitsIgnoringStatus :=
    funext fun r => c.admitsIgnoringStatus_mark t.inputs r
  rw [h.records_eq, List.filter_append, List.filter_map, hblind]

/-- An admitted record is told of as consumed exactly if it is among the inputs. -/
theorem Store.Committed.mem_told_iff (h : Store.Committed relevant now t s change s')
    (hs : s.Indexed) (hr : r ∈ s.records) (hadmits : c.admitsIgnoringStatus r = true) :
    r.reference ∈ (change.consumed.filter c.admitsIgnoringStatus).map StoredRecord.reference ↔
      r.reference ∈ t.inputs := by
  constructor
  · intro htold
    obtain ⟨k, hk, href⟩ := List.mem_map.1 htold
    exact href ▸ (h.of_mem_consumed hs (List.mem_filter.1 hk).1).1
  · intro hinput
    rw [← h.consumed_references hs] at hinput
    obtain ⟨k, hk, href⟩ := List.mem_map.1 hinput
    have hsame := (h.of_mem_consumed hs hk).2.2 r hr href.symm
    have hadmitsConsumed : c.admitsIgnoringStatus k = true := by
      rw [← hsame, ← hadmits]
      exact c.admitsIgnoringStatus_withStatus r .consumed (some now)
    exact href ▸ List.mem_map_of_mem (List.mem_filter.2 ⟨hk, hadmitsConsumed⟩)

/-- If criteria admit only records that can be viewed, the notifications of a commit bring the
    views of the admitted records up to date. -/
theorem exists_replay (h : Store.Committed relevant now t s change s') (hs : s.Indexed)
    (hviews : ∀ r ∈ s'.records, c.admitsIgnoringStatus r = true →
      ∃ v : Versioned α, r.view α = .ok v)
    (hkept : Views (s.records.filter c.admitsIgnoringStatus) kept) :
    ∃ notices : List (Notification α),
      ofUpdate α .all (change.restrict c.admitsIgnoringStatus) = .ok notices ∧
      Views (s'.records.filter c.admitsIgnoringStatus) (notices.foldl applyTo kept) := by
  have hproduced : change.produced = Store.producedBy relevant now t := by rw [h.change_eq]
  have hcan : ∀ k ∈ change.consumed.filter c.admitsIgnoringStatus,
      ∃ v : Versioned α, k.view α = .ok v := fun k hk =>
    hviews k (h.of_mem_consumed hs (List.mem_filter.1 hk).1).2.1 (List.mem_filter.1 hk).2
  have hnew : ∀ r ∈ change.produced.filter c.admitsIgnoringStatus,
      ∃ v : Versioned α, r.view α = .ok v := fun r hr => by
    obtain ⟨hmem, hadmits⟩ := List.mem_filter.1 hr
    refine hviews r ?_ hadmits
    rw [h.records_eq, ← hproduced]
    exact List.mem_append_right _ hmem
  obtain ⟨cs, hcs⟩ := exists_views hcan
  obtain ⟨ps, hps⟩ := exists_views hnew
  refine ⟨_, ofUpdate_of_views hcs hps, ?_⟩
  -- Of the admitted records, the inputs are exactly those that are told of.
  have hmarks : (s.records.filter c.admitsIgnoringStatus).map (Store.mark now
        ((change.consumed.filter c.admitsIgnoringStatus).map StoredRecord.reference)) =
      (s.records.filter c.admitsIgnoringStatus).map (Store.mark now t.inputs) := by
    refine List.map_congr_left fun r hr => ?_
    obtain ⟨hmem, hadmits⟩ := List.mem_filter.1 hr
    simp only [Store.mark, h.mem_told_iff hs hmem hadmits]
  rw [List.foldl_append, foldl_applyTo_produced, h.filter_records c, ← hproduced, ← hmarks]
  refine List.rel_append (foldl_applyTo_consumed hcs hkept fun k hk r hr href => ?_) hps
  exact (h.of_mem_consumed hs (List.mem_filter.1 hk).1).2.2 r (List.mem_filter.1 hr).1 href

end Commit

end LedgerQuery
