/-
  LedgerQuery.Proofs.Store.Commit

  What committing a transaction does to a store. The checks pass exactly when the transaction
  is acceptable (`check_eq_ok_iff`), and a commit that goes through changes the store in one way
  only (`Indexed.committed`): the inputs are marked where they stand, the outputs come behind all
  records, and the transaction is noted. Callers read a commit through that lemma and never
  open it.
-/
import LedgerQuery.Vault.Store

namespace LedgerQuery.Store

variable {s : Store} {now : Instant}

/-! ## The index -/

/-- The index knows every record by its reference, at the slot of the record, and knows nothing
    else. -/
def Indexed (s : Store) : Prop :=
  ∀ r slot, s.slot? r = some slot ↔ (s.records[slot]?).map StoredRecord.reference = some r

theorem Indexed.slot?_of_getElem? (hs : s.Indexed) {slot : Nat} {record : StoredRecord}
    (h : s.records[slot]? = some record) : s.slot? record.reference = some slot := by
  rw [hs, h]
  rfl

/-- A look-up finds the one record with the reference. -/
theorem Indexed.get?_eq_some_iff (hs : s.Indexed) {r : RecordRef} {record : StoredRecord} :
    s.get? r = some record ↔ record ∈ s.records ∧ record.reference = r := by
  constructor
  · intro h
    obtain ⟨slot, hslot, hrecord⟩ := Option.bind_eq_some_iff.1 h
    have href := (hs r slot).1 hslot
    rw [hrecord] at href
    exact ⟨List.mem_of_getElem? hrecord, Option.some.inj href⟩
  · rintro ⟨hmem, rfl⟩
    obtain ⟨slot, hslot⟩ := List.mem_iff_getElem?.1 hmem
    exact Option.bind_eq_some_iff.2 ⟨slot, hs.slot?_of_getElem? hslot, hslot⟩

theorem Indexed.get_eq_ok_iff (hs : s.Indexed) {r : RecordRef} {record : StoredRecord} :
    s.get r = .ok record ↔ record ∈ s.records ∧ record.reference = r := by
  rw [← hs.get?_eq_some_iff, get]
  cases s.get? r <;> simp

/-- So no two records share a reference. -/
theorem Indexed.eq_of_reference_eq (hs : s.Indexed) {a b : StoredRecord} (ha : a ∈ s.records)
    (hb : b ∈ s.records) (h : a.reference = b.reference) : a = b := by
  have hfound := hs.get?_eq_some_iff.2 ⟨ha, h⟩
  rw [hs.get?_eq_some_iff.2 ⟨hb, rfl⟩] at hfound
  exact (Option.some.inj hfound).symm

theorem Indexed.slot?_eq_none_iff (hs : s.Indexed) {r : RecordRef} :
    s.slot? r = none ↔ ∀ record ∈ s.records, record.reference ≠ r := by
  constructor
  · rintro h record hmem rfl
    obtain ⟨slot, hslot⟩ := List.mem_iff_getElem?.1 hmem
    rw [hs.slot?_of_getElem? hslot] at h
    cases h
  · intro h
    cases hslot : s.slot? r with
    | none => rfl
    | some slot =>
      obtain ⟨record, hrecord, href⟩ := Option.map_eq_some_iff.1 ((hs r slot).1 hslot)
      exact absurd href (h record (List.mem_of_getElem? hrecord))

/-- No reference stands in two slots. -/
theorem Indexed.nodup (hs : s.Indexed) : (s.records.map StoredRecord.reference).Nodup := by
  rw [List.Nodup, List.pairwise_iff_getElem]
  intro i j hi hj hij heq
  rw [List.length_map] at hi hj
  rw [List.getElem_map, List.getElem_map] at heq
  have hslot := hs.slot?_of_getElem? (List.getElem?_eq_getElem hi)
  rw [heq, hs.slot?_of_getElem? (List.getElem?_eq_getElem hj)] at hslot
  exact absurd (Option.some.inj hslot) (by omega)

theorem Indexed.nodup_filter (hs : s.Indexed) (keep : StoredRecord → Bool) :
    ((s.records.filter keep).map StoredRecord.reference).Nodup :=
  hs.nodup.sublist (List.filter_sublist.map _)

/-! ## Acceptable transactions -/

/-- What a transaction has to meet to be committed: it is new, its inputs are recorded, current
    and all different, and the predecessors of its outputs are recorded. -/
structure Accepts (s : Store) (t : Transaction) : Prop where
  fresh : t.id ∉ s.transactions
  distinct : t.inputs.Nodup
  current : ∀ input ∈ t.inputs, ∃ record, s.get? input = some record ∧ record.status ≠ .consumed
  linked : ∀ o ∈ t.outputs, ∀ back, o.back = some back → (s.slot? back).isSome

theorem checkInputs_eq_ok_iff {seen inputs : List RecordRef} :
    s.checkInputs seen inputs = .ok () ↔
      inputs.Nodup ∧ (∀ input ∈ inputs, input ∉ seen) ∧
        ∀ input ∈ inputs, ∃ record, s.get? input = some record ∧ record.status ≠ .consumed := by
  induction inputs generalizing seen with
  | nil => simp [checkInputs]
  | cons input rest ih =>
    rw [checkInputs]
    cases hget : s.get? input with
    | none => simp [hget]
    | some record =>
      dsimp only
      by_cases hbad : record.status = .consumed ∨ input ∈ seen
      · rw [if_pos hbad]
        constructor
        · intro h
          cases h
        · rintro ⟨-, hseen, hcurrent⟩
          obtain ⟨found, hfound, hstatus⟩ := hcurrent input List.mem_cons_self
          cases hget.symm.trans hfound
          exact absurd hbad (not_or.2 ⟨hstatus, hseen input List.mem_cons_self⟩)
      · -- The rest is checked against `input :: seen`, which is where a repeated input shows.
        rw [if_neg hbad, ih]
        obtain ⟨hstatus, hnew⟩ := not_or.1 hbad
        simp only [List.nodup_cons, List.mem_cons, forall_eq_or_imp, not_or, hget]
        constructor
        · rintro ⟨hnd, hseen, hcurrent⟩
          exact ⟨⟨fun hmem => (hseen input hmem).1 rfl, hnd⟩,
            ⟨hnew, fun i hi => (hseen i hi).2⟩, ⟨record, rfl, hstatus⟩, hcurrent⟩
        · rintro ⟨⟨hnot, hnd⟩, ⟨-, hseen⟩, -, hcurrent⟩
          exact ⟨hnd, fun i hi => ⟨fun he => hnot (he ▸ hi), hseen i hi⟩, hcurrent⟩

theorem checkOutputs_eq_ok_iff {id : TransactionId} {index : Nat} {outputs : List Output} :
    s.checkOutputs id index outputs = .ok () ↔
      ∀ o ∈ outputs, ∀ back, o.back = some back → (s.slot? back).isSome := by
  induction outputs generalizing index with
  | nil => simp [checkOutputs]
  | cons output rest ih =>
    rw [checkOutputs]
    cases hback : output.back with
    | none => simp [hback, ih]
    | some back =>
      by_cases hslot : (s.slot? back).isSome
      · simp [hback, hslot, ih]
      · simp [hback, hslot]

/-- The checks pass exactly for acceptable transactions. -/
theorem check_eq_ok_iff {t : Transaction} : s.check t = .ok () ↔ s.Accepts t := by
  rw [check]
  by_cases hid : t.id ∈ s.transactions
  · rw [if_pos hid]
    exact ⟨fun h => (nomatch h), fun h => absurd hid h.fresh⟩
  · rw [if_neg hid]
    cases hin : s.checkInputs [] t.inputs with
    | error e =>
      refine ⟨fun h => (nomatch h), fun h => ?_⟩
      have hok := checkInputs_eq_ok_iff.2 ⟨h.distinct, fun _ _ => List.not_mem_nil, h.current⟩
      rw [hin] at hok
      cases hok
    | ok _ =>
      obtain ⟨hnd, -, hcurrent⟩ := checkInputs_eq_ok_iff.1 hin
      rw [checkOutputs_eq_ok_iff]
      exact ⟨fun h => ⟨hid, hnd, hcurrent, h⟩, fun h => h.linked⟩

/-! ## Consuming -/

/-- A record as it is after some references are consumed. -/
def mark (now : Instant) (inputs : List RecordRef) (r : StoredRecord) : StoredRecord :=
  if r.reference ∈ inputs then consumed now r else r

@[simp] theorem mark_reference (inputs : List RecordRef) (r : StoredRecord) :
    (mark now inputs r).reference = r.reference := by
  unfold mark
  split <;> rfl

@[simp] theorem mark_back (inputs : List RecordRef) (r : StoredRecord) :
    (mark now inputs r).back = r.back := by
  unfold mark
  split <;> rfl

/-- Marking in two goes is marking at once. -/
theorem mark_mark (input : RecordRef) (rest : List RecordRef) (r : StoredRecord) :
    mark now rest (mark now [input] r) = mark now (input :: rest) r := by
  by_cases hr : r.reference = input <;> by_cases hrest : r.reference ∈ rest <;>
    simp [mark, hr, hrest, consumed]

theorem consumed_mark (inputs : List RecordRef) (r : StoredRecord) :
    consumed now (mark now inputs r) = consumed now r := by
  unfold mark
  split <;> rfl

/-- The store after some references are consumed. -/
def marked (now : Instant) (inputs : List RecordRef) (s : Store) : Store :=
  { s with records := s.records.map (mark now inputs) }

theorem Indexed.marked (hs : s.Indexed) (inputs : List RecordRef) :
    (s.marked now inputs).Indexed := by
  intro r slot
  simp only [Store.marked, List.getElem?_map, Option.map_map, Function.comp_def, mark_reference]
  exact hs r slot

theorem get?_marked (inputs : List RecordRef) (r : RecordRef) :
    (s.marked now inputs).get? r = (s.get? r).map (mark now inputs) := by
  simp only [get?, Store.marked, slot?, List.getElem?_map]
  cases s.slots.lookup r <;> rfl

/-- One input is marked where it stands. -/
theorem Indexed.consume_eq (hs : s.Indexed) (input : RecordRef) :
    s.consume now input = ((s.get? input).map (consumed now), s.marked now [input]) := by
  unfold consume
  cases hslot : s.slot? input with
  | none =>
    -- No record has the reference, so marking changes none.
    have hsame : s.records.map (mark now [input]) = s.records.map id := by
      refine List.map_congr_left fun record hmem => ?_
      simp [mark, hs.slot?_eq_none_iff.1 hslot record hmem]
    simp [get?, hslot, Store.marked, hsame]
  | some slot =>
    obtain ⟨record, hrecord, href⟩ := Option.map_eq_some_iff.1 ((hs input slot).1 hslot)
    -- The index is exact, so the slot that is changed holds the only record that marking changes.
    have hmodify : s.records.modify slot (consumed now) = s.records.map (mark now [input]) := by
      refine List.ext_getElem? fun i => ?_
      rw [List.getElem?_modify, List.getElem?_map]
      by_cases hi : slot = i
      · subst hi
        simp [hrecord, mark, href]
      · cases hother : s.records[i]? with
        | none => simp
        | some other =>
          have hne : other.reference ≠ input := by
            rintro rfl
            rw [hs.slot?_of_getElem? hother] at hslot
            exact hi (Option.some.inj hslot).symm
          simp [mark, hne, hi]
    simp [get?, hslot, hrecord, Store.marked, hmodify, mark, href]

/-- All inputs are marked where they stand, and come out in the order they were asked for. -/
theorem Indexed.consumeAll_eq (hs : s.Indexed) (inputs : List RecordRef) :
    s.consumeAll now inputs =
      (inputs.filterMap fun i => (s.get? i).map (consumed now), s.marked now inputs) := by
  induction inputs generalizing s with
  | nil =>
    have hsame : s.records.map (mark now []) = s.records.map id :=
      List.map_congr_left fun record _ => by simp [mark]
    simp [consumeAll, Store.marked, hsame]
  | cons input rest ih =>
    -- The later inputs are looked up in a store that is marked already. That makes no difference,
    -- since consuming overwrites what marking has written.
    have hrest : (rest.filterMap fun i => ((s.marked now [input]).get? i).map (consumed now)) =
        rest.filterMap fun i => (s.get? i).map (consumed now) := by
      congr 1
      funext i
      rw [get?_marked, Option.map_map]
      exact congrArg (Option.map · (s.get? i)) (funext fun r => consumed_mark [input] r)
    have hall : (s.marked now [input]).marked now rest = s.marked now (input :: rest) := by
      simp only [Store.marked, List.map_map]
      congr 1
      exact List.map_congr_left fun r _ => mark_mark input rest r
    simp only [consumeAll, hs.consume_eq, ih (hs.marked [input]), hrest, hall]
    cases hget : s.get? input <;> simp [hget]

theorem Indexed.map_reference_consumed (hs : s.Indexed) {inputs : List RecordRef}
    (hall : ∀ i ∈ inputs, ∃ record, s.get? i = some record) :
    (inputs.filterMap fun i => (s.get? i).map (consumed now)).map StoredRecord.reference =
      inputs := by
  induction inputs with
  | nil => rfl
  | cons i rest ih =>
    obtain ⟨record, hget⟩ := hall i List.mem_cons_self
    have hrest := ih fun j hj => hall j (List.mem_cons_of_mem _ hj)
    simp only [List.filterMap_cons, hget, Option.map_some, List.map_cons]
    rw [hrest]
    simp only [consumed, (hs.get?_eq_some_iff.1 hget).2]

/-! ## Producing -/

/-- The records that a transaction produces. -/
def producedBy (relevant : List Party → Bool) (now : Instant) (t : Transaction) :
    List StoredRecord :=
  t.outputs.mapIdx (produced relevant now t.id)

/-- What the records that a transaction produces look like: new, current, with the predecessor
    that the output names. -/
theorem of_mem_producedBy {relevant : List Party → Bool} {t : Transaction} {r : StoredRecord}
    (h : r ∈ producedBy relevant now t) :
    r.reference.transaction = t.id ∧ r.status = .unconsumed ∧ r.consumedAt = none ∧
      ∃ o ∈ t.outputs, r.back = o.back := by
  obtain ⟨i, hi, rfl⟩ := List.mem_mapIdx.1 h
  exact ⟨rfl, rfl, rfl, t.outputs[i], List.getElem_mem hi, rfl⟩

/-- Outputs get different references as long as 32 bits count them. -/
theorem nodup_producedBy {relevant : List Party → Bool} {t : Transaction}
    (hsize : t.outputs.length ≤ UInt32.size) :
    ((producedBy relevant now t).map StoredRecord.reference).Nodup := by
  rw [List.Nodup, List.pairwise_iff_getElem]
  intro i j hi hj hij heq
  simp only [producedBy, List.length_map, List.length_mapIdx] at hi hj
  simp only [producedBy, List.getElem_map, List.getElem_mapIdx, produced, RecordRef.mk.injEq,
    true_and] at heq
  -- An index is cut to 32 bits, which loses nothing below the bound.
  have hnat := congrArg UInt32.toNat heq
  rw [UInt32.toNat_ofNat_of_lt' (by omega), UInt32.toNat_ofNat_of_lt' (by omega)] at hnat
  omega

theorem slot?_append (new : StoredRecord) (r : RecordRef) :
    (s.append new).slot? r =
      if r = new.reference then some s.records.length else s.slot? r := by
  rw [slot?, append, List.lookup_cons]
  by_cases hr : r = new.reference
  · rw [if_pos hr, hr, beq_self_eq_true]
  · rw [if_neg hr, beq_eq_false_iff_ne.2 hr]
    rfl

/-- A record with a new reference is put into the next slot. -/
theorem Indexed.append (hs : s.Indexed) {new : StoredRecord}
    (hnew : s.slot? new.reference = none) : (s.append new).Indexed := by
  intro r slot
  rw [slot?_append]
  simp only [Store.append]
  -- Slots below the new one keep their records, the new one is taken, and above it there are none.
  rcases Nat.lt_trichotomy slot s.records.length with hlt | rfl | hgt
  · rw [List.getElem?_append_left hlt, ← hs r slot]
    by_cases hr : r = new.reference
    · subst hr
      rw [if_pos rfl, hnew]
      constructor
      · intro h
        exact absurd (Option.some.inj h) (by omega)
      · intro h
        cases h
    · rw [if_neg hr]
  · rw [List.getElem?_append_right (Nat.le_refl _)]
    by_cases hr : r = new.reference
    · simp [hr]
    · rw [if_neg hr, hs r, List.getElem?_eq_none (Nat.le_refl _)]
      simp [Ne.symm hr]
  · have hend : (s.records ++ [new])[slot]? = none :=
      List.getElem?_eq_none (by simp; omega)
    rw [hend]
    by_cases hr : r = new.reference
    · rw [if_pos hr]
      simp only [Option.some.injEq, Option.map_none, reduceCtorEq, iff_false]
      omega
    · rw [if_neg hr, hs r, List.getElem?_eq_none (by omega)]

theorem foldl_append_records (new : List StoredRecord) :
    (new.foldl append s).records = s.records ++ new := by
  induction new generalizing s with
  | nil => simp
  | cons r rest ih =>
    rw [List.foldl_cons, ih]
    simp [append]

theorem foldl_append_transactions (new : List StoredRecord) :
    (new.foldl append s).transactions = s.transactions := by
  induction new generalizing s with
  | nil => rfl
  | cons r rest ih => rw [List.foldl_cons, ih]; rfl

theorem Indexed.foldl_append (hs : s.Indexed) {new : List StoredRecord}
    (hnew : ∀ r ∈ new, s.slot? r.reference = none)
    (hnd : (new.map StoredRecord.reference).Nodup) : (new.foldl Store.append s).Indexed := by
  induction new generalizing s with
  | nil => exact hs
  | cons r rest ih =>
    obtain ⟨hnot, hrest⟩ := List.nodup_cons.1 hnd
    rw [List.foldl_cons]
    refine ih (hs.append (hnew r List.mem_cons_self)) (fun q hq => ?_) hrest
    have hne : q.reference ≠ r.reference := fun he =>
      hnot (he ▸ List.mem_map_of_mem hq)
    rw [slot?_append, if_neg hne]
    exact hnew q (List.mem_cons_of_mem _ hq)

/-! ## Committing -/

/-- A commit goes through exactly for acceptable transactions. -/
theorem commit_eq_ok_iff {relevant : List Party → Bool} {t : Transaction} :
    (∃ result, s.commit relevant now t = .ok result) ↔ s.Accepts t := by
  rw [← check_eq_ok_iff, commit]
  cases s.check t with
  | error e => simp
  | ok _ => simp

/-- All that a commit does: what it tells of, and the store that it leaves. -/
structure Committed (relevant : List Party → Bool) (now : Instant) (t : Transaction)
    (s : Store) (change : Update) (s' : Store) : Prop where
  accepts : s.Accepts t
  change_eq : change = ⟨t.id, t.inputs.filterMap fun i => (s.get? i).map (consumed now),
    producedBy relevant now t⟩
  records_eq : s'.records = s.records.map (mark now t.inputs) ++ producedBy relevant now t
  transactions_eq : s'.transactions = t.id :: s.transactions
  slots_eq : s'.slots = ((producedBy relevant now t).foldl append (s.marked now t.inputs)).slots

theorem Indexed.committed (hs : s.Indexed) {relevant : List Party → Bool} {t : Transaction}
    {change : Update} {s' : Store} (h : s.commit relevant now t = .ok (change, s')) :
    Committed relevant now t s change s' := by
  have haccepts := commit_eq_ok_iff.1 ⟨_, h⟩
  rw [commit, check_eq_ok_iff.2 haccepts] at h
  simp only [hs.consumeAll_eq, Except.ok.injEq, Prod.mk.injEq] at h
  obtain ⟨rfl, rfl⟩ := h
  exact ⟨haccepts, rfl, foldl_append_records _, by rw [foldl_append_transactions]; rfl, rfl⟩

namespace Committed

variable {relevant : List Party → Bool} {t : Transaction} {change : Update} {s' : Store}

/-- The references stay where they were, and the new ones follow. -/
theorem references_eq (h : Committed relevant now t s change s') :
    s'.records.map StoredRecord.reference =
      s.records.map StoredRecord.reference ++
        (producedBy relevant now t).map StoredRecord.reference := by
  rw [h.records_eq, List.map_append, List.map_map]
  congr 1
  exact List.map_congr_left fun r _ => mark_reference t.inputs r

/-- The records that are told of as consumed are the inputs, in their order. -/
theorem consumed_references (h : Committed relevant now t s change s') (hs : s.Indexed) :
    change.consumed.map StoredRecord.reference = t.inputs := by
  rw [h.change_eq]
  refine hs.map_reference_consumed fun i hi => ?_
  obtain ⟨record, hget, -⟩ := h.accepts.current i hi
  exact ⟨record, hget⟩

/-- A record that is told of as consumed is what the record with its reference becomes. -/
theorem of_mem_consumed (h : Committed relevant now t s change s') (hs : s.Indexed)
    {k : StoredRecord} (hk : k ∈ change.consumed) :
    k.reference ∈ t.inputs ∧ k ∈ s'.records ∧
      ∀ r ∈ s.records, r.reference = k.reference → consumed now r = k := by
  rw [h.change_eq] at hk
  obtain ⟨i, hi, hfound⟩ := List.mem_filterMap.1 hk
  obtain ⟨record, hget, rfl⟩ := Option.map_eq_some_iff.1 hfound
  obtain ⟨hmem, rfl⟩ := hs.get?_eq_some_iff.1 hget
  refine ⟨hi, ?_, fun r hr href => ?_⟩
  · rw [h.records_eq]
    refine List.mem_append_left _ (List.mem_map.2 ⟨record, hmem, ?_⟩)
    rw [mark, if_pos hi]
  · rw [hs.eq_of_reference_eq hr hmem href]

end Committed

end LedgerQuery.Store
