/-
  LedgerQuery.Proofs.Vault.Journal

  A vault from its first transaction on. Transactions are offered one after the other; those that
  are accepted go into a journal together with the change that was told of them, and those that
  are rejected leave no trace. Main statement: `recordAll_keeps_books`, by which the records, the
  index, the transactions and the journal agree after every run.
-/
import LedgerQuery.Proofs.Store.Sound
import LedgerQuery.Vault.Basic

namespace LedgerQuery.Vault

/-! ## Runs -/

/-- An accepted transaction, and the change that was told of it. -/
structure Entry where
  transaction : Transaction
  change : Update

/-- The references of the records that an entry consumed. -/
def Entry.consumed (e : Entry) : List RecordRef := e.change.consumed.map StoredRecord.reference

/-- The references of the records that an entry produced. -/
def Entry.produced (e : Entry) : List RecordRef := e.change.produced.map StoredRecord.reference

/-- Offer a transaction at a time. If the vault accepts it, the journal grows by an entry; if
    not, both stay as they are. -/
def offer (state : Vault × List Entry) (call : Instant × Transaction) : Vault × List Entry :=
  match state.1.commit call.1 call.2 with
  | .ok (change, v) => (v, state.2 ++ [⟨call.2, change⟩])
  | .error _ => state

/-- Offer transactions in order, from an empty journal. -/
def recordAll (v : Vault) (calls : List (Instant × Transaction)) : Vault × List Entry :=
  calls.foldl offer (v, [])

/-- The store of an offer is that of the commit, or it stays. -/
theorem offer_cases (state : Vault × List Entry) (call : Instant × Transaction) :
    offer state call = state ∨
      ∃ change store,
        state.1.store.commit state.1.config.isRelevant call.1 call.2 = .ok (change, store) ∧
          (offer state call).1.store = store ∧
          (offer state call).2 = state.2 ++ [⟨call.2, change⟩] := by
  cases hcommit : state.1.store.commit state.1.config.isRelevant call.1 call.2 with
  | error e =>
    left
    simp [offer, commit, hcommit]
  | ok result =>
    right
    refine ⟨result.1, result.2, rfl, ?_, ?_⟩ <;> simp [offer, commit, hcommit]

/-! ## The journal -/

/-- What a journal says of the store that it led to. -/
structure Recounts (log : List Entry) (s : Store) : Prop where
  transactions : ∀ id, id ∈ s.transactions ↔ ∃ e ∈ log, e.transaction.id = id
  produced : log.flatMap Entry.produced = s.records.map StoredRecord.reference
  consumed_nodup : (log.flatMap Entry.consumed).Nodup
  mem_consumed : ∀ r, r ∈ log.flatMap Entry.consumed ↔
    ∃ record ∈ s.records, record.reference = r ∧ record.status = .consumed

theorem Recounts.empty : Recounts [] .empty where
  transactions id := by simp [Store.empty]
  produced := rfl
  consumed_nodup := .nil
  mem_consumed r := by simp [Store.empty]

section Step

variable {relevant : List Party → Bool} {now : Instant} {s s' : Store} {t : Transaction}
  {change : Update} {log : List Entry}

/-- An input of an acceptable transaction has not been consumed before. -/
theorem Recounts.not_mem_consumed (h : Recounts log s) (hs : s.Indexed) (ht : s.Accepts t)
    {r : RecordRef} (hr : r ∈ t.inputs) : r ∉ log.flatMap Entry.consumed := by
  intro hmem
  obtain ⟨record, hrecord, href, hstatus⟩ := (h.mem_consumed r).1 hmem
  obtain ⟨found, hfound, hcurrent⟩ := ht.current r hr
  rw [hs.get?_eq_some_iff.2 ⟨hrecord, href⟩] at hfound
  cases hfound
  exact hcurrent hstatus

/-- The consumed records after a commit: those from before, and the inputs. -/
theorem Recounts.mem_consumed_or_inputs (h : Recounts log s) (hs : s.Indexed)
    (hc : s.Committed relevant now t change s') (r : RecordRef) :
    r ∈ log.flatMap Entry.consumed ∨ r ∈ t.inputs ↔
      ∃ record ∈ s'.records, record.reference = r ∧ record.status = .consumed := by
  have hkept : ∀ old ∈ s.records, Store.mark now t.inputs old ∈ s'.records := fun old hold => by
    rw [hc.records_eq]
    exact List.mem_append_left _ (List.mem_map_of_mem hold)
  constructor
  · rintro (hold | hin)
    · obtain ⟨old, hmem, href, hstatus⟩ := (h.mem_consumed r).1 hold
      refine ⟨_, hkept old hmem, by rw [Store.mark_reference, href], ?_⟩
      unfold Store.mark
      split
      · rfl
      · exact hstatus
    · obtain ⟨old, hget, -⟩ := hc.accepts.current r hin
      obtain ⟨hmem, href⟩ := hs.get?_eq_some_iff.1 hget
      refine ⟨_, hkept old hmem, by rw [Store.mark_reference, href], ?_⟩
      rw [Store.mark, if_pos (href ▸ hin)]
      rfl
  · rintro ⟨record, hmem, href, hstatus⟩
    rcases hc.of_mem hmem with ⟨old, hold, rfl⟩ | hnew
    · rw [Store.mark_reference] at href
      by_cases hin : old.reference ∈ t.inputs
      · exact .inr (href ▸ hin)
      · rw [Store.mark, if_neg hin] at hstatus
        exact .inl ((h.mem_consumed r).2 ⟨old, hold, href, hstatus⟩)
    · -- New records are not consumed yet.
      rw [(Store.of_mem_producedBy hnew).2.1] at hstatus
      cases hstatus

/-- A commit adds its entry to a journal that recounts the store. -/
theorem Recounts.commit (h : Recounts log s) (hs : s.Indexed)
    (hc : s.Committed relevant now t change s') : Recounts (log ++ [Entry.mk t change]) s' := by
  have hconsumed : (log ++ [Entry.mk t change]).flatMap Entry.consumed =
      log.flatMap Entry.consumed ++ t.inputs := by
    rw [List.flatMap_append, List.flatMap_singleton, Entry.consumed, hc.consumed_references hs]
  refine ⟨fun id => ?_, ?_, ?_, fun r => ?_⟩
  · rw [hc.transactions_eq, List.mem_cons, h.transactions]
    constructor
    · rintro (rfl | ⟨e, he, hid⟩)
      · exact ⟨⟨t, change⟩, List.mem_append_right _ List.mem_cons_self, rfl⟩
      · exact ⟨e, List.mem_append_left _ he, hid⟩
    · rintro ⟨e, he, hid⟩
      rcases List.mem_append.1 he with hold | hnew
      · exact .inr ⟨e, hold, hid⟩
      · cases List.mem_singleton.1 hnew
        exact .inl hid.symm
  · rw [List.flatMap_append, List.flatMap_singleton, h.produced, hc.references_eq, Entry.produced,
      hc.change_eq]
  · -- Inputs are current when they are accepted, and what the journal has consumed is not.
    rw [hconsumed, List.nodup_append]
    refine ⟨h.consumed_nodup, hc.accepts.distinct, fun a ha b hb hab => ?_⟩
    exact h.not_mem_consumed hs hc.accepts hb (hab ▸ ha)
  · rw [hconsumed, List.mem_append]
    exact h.mem_consumed_or_inputs hs hc r

end Step

/-! ## Every run -/

/-- The store stays sound and the journal keeps recounting it, call by call. -/
theorem foldl_offer_sound {calls : List (Instant × Transaction)}
    (hsize : ∀ call ∈ calls, call.2.outputs.length ≤ UInt32.size)
    (state : Vault × List Entry) (hs : state.1.store.Sound)
    (hlog : Recounts state.2 state.1.store) :
    (calls.foldl offer state).1.store.Sound ∧
      Recounts (calls.foldl offer state).2 (calls.foldl offer state).1.store := by
  -- Along the calls; one that is rejected changes neither the store nor the journal.
  induction calls generalizing state with
  | nil => exact ⟨hs, hlog⟩
  | cons call rest ih =>
    have hrest : ∀ c ∈ rest, c.2.outputs.length ≤ UInt32.size :=
      fun c hc => hsize c (List.mem_cons_of_mem _ hc)
    rw [List.foldl_cons]
    rcases offer_cases state call with hsame | ⟨change, store, hcommit, hstore, hentries⟩
    · rw [hsame]
      exact ih hrest state hs hlog
    · have hc := hs.indexed.committed hcommit
      refine ih hrest _ ?_ ?_
      · rw [hstore]
        exact hs.commit (hsize call List.mem_cons_self) hcommit
      · rw [hstore, hentries]
        exact hlog.commit hs.indexed hc

/-- After any run from the empty vault: references are distinct and the index is exact, so that
    a look-up finds the one record with a reference; the transactions are the accepted ones, and
    every record belongs to one; a record has a time of consumption exactly when it is consumed;
    every back link leads to a record in a smaller slot; and every record was told of once as
    produced, and once as consumed if it is consumed and never otherwise. -/
theorem recordAll_keeps_books (config : VaultConfig) (calls : List (Instant × Transaction))
    (hsize : ∀ call ∈ calls, call.2.outputs.length ≤ UInt32.size) :
    let final := recordAll { config } calls
    let store := final.1.store
    let log := final.2
    ((store.records.map StoredRecord.reference).Nodup ∧
      (∀ r slot, store.slot? r = some slot ↔
        (store.records[slot]?).map StoredRecord.reference = some r) ∧
      ∀ r record, store.get r = .ok record ↔ record ∈ store.records ∧ record.reference = r) ∧
    ((∀ id, id ∈ store.transactions ↔ ∃ e ∈ log, e.transaction.id = id) ∧
      ∀ record ∈ store.records, record.reference.transaction ∈ store.transactions) ∧
    (∀ record ∈ store.records, record.status = .consumed ↔ record.consumedAt.isSome) ∧
    (∀ (slot : Nat) (record : StoredRecord) (back : RecordRef),
      store.records[slot]? = some record → record.back = some back →
      ∃ earlier, earlier < slot ∧
        (store.records[earlier]?).map StoredRecord.reference = some back) ∧
    (∀ record ∈ store.records,
      (log.flatMap Entry.produced).count record.reference = 1 ∧
      (log.flatMap Entry.consumed).count record.reference =
        if record.status = .consumed then 1 else 0) := by
  intro final store log
  obtain ⟨hs, hlog⟩ : store.Sound ∧ Recounts log store :=
    foldl_offer_sound hsize ({ config }, []) .empty .empty
  have hget : ∀ r record, store.get r = .ok record ↔
      record ∈ store.records ∧ record.reference = r := fun r record => by
    rw [← hs.indexed.get?_eq_some_iff, Store.get]
    cases store.get? r <;> simp
  refine ⟨⟨hs.indexed.nodup, hs.indexed, hget⟩, ⟨hlog.transactions, hs.owned⟩, hs.stamped, ?_, ?_⟩
  · intro slot record back hslot hback
    obtain ⟨earlier, hlt, hearlier⟩ := hs.linked slot record back hslot hback
    exact ⟨earlier, hlt, (hs.indexed back earlier).1 hearlier⟩
  · intro record hmem
    constructor
    · rw [hlog.produced, hs.indexed.nodup.count, if_pos (List.mem_map_of_mem hmem)]
    · rw [hlog.consumed_nodup.count]
      -- The journal goes by references; the record with this one is no other than `record`.
      have hiff : record.reference ∈ log.flatMap Entry.consumed ↔ record.status = .consumed := by
        rw [hlog.mem_consumed]
        constructor
        · rintro ⟨other, hother, href, hstatus⟩
          have hsame := hs.indexed.get?_eq_some_iff.2 ⟨hother, href⟩
          rw [hs.indexed.get?_eq_some_iff.2 ⟨hmem, rfl⟩] at hsame
          cases hsame
          exact hstatus
        · exact fun hstatus => ⟨record, hmem, rfl, hstatus⟩
      simp only [hiff]

/-- A record is opened, opened again in vain, passed on, and passed on again in vain. -/
def openedAndPassedOn : List (Instant × Transaction) :=
  let first : RecordRef := ⟨.ofNumber 1, 0⟩
  let output (back : Option RecordRef) : Output := ⟨back, [.any], .null, [], none⟩
  let opening : Transaction := ⟨.ofNumber 1, [], [output none]⟩
  let passing (n : Nat) : Transaction := ⟨.ofNumber n, [first], [output (some first)]⟩
  [(.epoch, opening), (.epoch, opening), (.epoch, passing 2), (.epoch, passing 3)]

theorem recordAll_keeps_books_openedAndPassedOn :
    (∀ call ∈ openedAndPassedOn, call.2.outputs.length ≤ UInt32.size) ∧
      (recordAll {} openedAndPassedOn).2.map (·.transaction.id) = [.ofNumber 1, .ofNumber 2] ∧
      (recordAll {} openedAndPassedOn).1.store.records.map (·.status) = [.consumed, .unconsumed] ∧
      ∀ record ∈ (recordAll {} openedAndPassedOn).1.store.records,
        ((recordAll {} openedAndPassedOn).2.flatMap Entry.produced).count record.reference = 1 ∧
        ((recordAll {} openedAndPassedOn).2.flatMap Entry.consumed).count record.reference =
          if record.status = .consumed then 1 else 0 :=
  ⟨by decide, by decide, by decide,
    (recordAll_keeps_books {} openedAndPassedOn (by decide)).2.2.2.2⟩

end LedgerQuery.Vault
