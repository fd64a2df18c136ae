/-
  LedgerQuery.Proofs.Vault.Acceptance

  Transactions are committed as a whole or not at all. Which of the two happens is told by what is
  recorded, and so is the error of a rejection, which is that of the first fault (`Store.Fault`);
  a rejected transaction leaves the vault as it was. What an accepted one leaves is told in full by
  `Vault.Applied`. Main statement: `commit_all_or_nothing`.
-/
import LedgerQuery.Proofs.Store.Fault
import LedgerQuery.Proofs.Vault.Reachable

namespace LedgerQuery

/-! ## Stores -/

namespace Store

variable {s s' : Store} {now : Instant} {relevant : List Party → Bool} {t : Transaction}
  {change : Update} {e : VaultError} {r : RecordRef}

/-- A commit fails with the error of the first fault. -/
theorem Indexed.commit_eq_error_iff (hs : s.Indexed) :
    s.commit relevant now t = .error e ↔ s.Fault t e := by
  rw [← hs.check_eq_error_iff, commit]
  cases s.check t <;> simp

/-- A recorded reference is no output of a new transaction. -/
theorem Sound.transaction_ne_of_recorded (hs : s.Sound) (hfresh : t.id ∉ s.transactions)
    (hr : s.Recorded r) : r.transaction ≠ t.id := by
  obtain ⟨record, hmem, rfl⟩ := hr
  exact fun heq => hfresh (heq ▸ hs.owned record hmem)

/-- What is told of as consumed is what the store holds afterwards under the inputs. -/
theorem Committed.map_some_consumed (h : Committed relevant now t s change s') (hs : s.Indexed)
    (hs' : s'.Indexed) : change.consumed.map some = t.inputs.map s'.get? := by
  rw [← h.consumed_references hs, List.map_map]
  refine List.map_congr_left fun k hk => ?_
  exact (hs'.get?_eq_some_iff.2 ⟨(h.of_mem_consumed hs hk).2.1, rfl⟩).symm

end Store

/-! ## Vaults -/

namespace Vault

variable {v w : Vault} {now : Instant} {t : Transaction} {change : Update} {e : VaultError}

/-- What a vault is after it has applied a transaction, and what it tells of that. -/
structure Applied (v : Vault) (now : Instant) (t : Transaction) (change : Update) (w : Vault) :
    Prop where
  /-- Inputs change in their status and the time of their consumption only. All records keep their
      places, and the new ones come behind them. -/
  records : w.store.records = v.store.records.map (fun r =>
      if r.reference ∈ t.inputs then { r with status := .consumed, consumedAt := some now } else r)
    ++ change.produced
  /-- The new records are the outputs, in their order. -/
  produced : change.produced = t.outputs.mapIdx fun i o =>
    { reference := t.outputRef i
      back := o.back
      lineage := o.lineage
      payload := o.payload
      participants := o.participants
      linearId := o.linearId
      relevant := v.config.isRelevant o.participants
      status := .unconsumed
      recordedAt := now
      consumedAt := none }
  /-- A reference tells the place of its output; 32 bits are enough. -/
  counted : ∀ i < t.outputs.length, (t.outputRef i).index.toNat = i
  /-- The records told of as consumed are those under the inputs, in their order, as they are
      afterwards. -/
  consumed : change.consumed.map some = t.inputs.map w.store.get?
  transaction : change.transaction = t.id
  transactions : w.store.transactions = t.id :: v.store.transactions
  kept : ∀ r slot, v.store.slot? r = some slot → w.store.slot? r = some slot
  found : ∀ r record, w.store.get r = .ok record ↔ record ∈ w.store.records ∧ record.reference = r
  /-- The trackers are told of the change, and nothing else happens. -/
  told : w = { v with
    store := w.store
    trackers := v.trackers.filterMap (Tracker.notify? change) }

theorem commit_eq_error_iff :
    v.commit now t = .error e ↔ v.store.commit v.config.isRelevant now t = .error e := by
  unfold commit
  cases v.store.commit v.config.isRelevant now t <;> simp

theorem exists_commit_iff :
    (∃ result, v.commit now t = .ok result) ↔
      ∃ result, v.store.commit v.config.isRelevant now t = .ok result := by
  unfold commit
  cases v.store.commit v.config.isRelevant now t <;> simp

/-- A rejected transaction leaves the vault and the journal as they were. -/
theorem offer_of_error {log : List Entry} (h : v.commit now t = .error e) :
    offer (v, log) (now, t) = (v, log) := by
  unfold offer
  rw [h]

/-- An accepted transaction is applied. -/
theorem Reachable.applied (hv : v.Reachable) (hsize : t.outputs.length ≤ UInt32.size)
    (h : v.commit now t = .ok (change, w)) : v.Applied now t change w := by
  obtain ⟨hcommit, hw⟩ := commit_eq_ok h
  have hs := hv.sound
  have hs' := hs.commit hsize hcommit
  have hc := hs.indexed.committed hcommit
  have hproduced := congrArg Update.produced hc.change_eq
  refine ⟨?_, hproduced, fun i hi => ?_, hc.map_some_consumed hs.indexed hs'.indexed,
    congrArg Update.transaction hc.change_eq, hc.transactions_eq,
    fun r slot => hc.slot?_of_some hs.indexed hs'.indexed,
    fun r record => hs'.indexed.get_eq_ok_iff, hw⟩
  · rw [hproduced]
    exact hc.records_eq
  · exact UInt32.toNat_ofNat_of_lt' (by omega)

/-- A transaction is committed as a whole or not at all. It is accepted exactly if it is new, its
    inputs are all different, recorded and unconsumed, and the predecessors of its outputs are
    recorded, which none of the outputs themselves is; if not, the error is that of the first
    fault, and the vault stays as it was. What is accepted is applied. -/
theorem commit_all_or_nothing {v : Vault} (hv : v.Reachable) (now : Instant) (t : Transaction)
    (hsize : t.outputs.length ≤ UInt32.size) :
    ((∃ result, v.commit now t = .ok result) ↔
      t.id ∉ v.store.transactions ∧ t.inputs.Nodup ∧ (∀ input ∈ t.inputs, v.store.Current input) ∧
        ∀ o ∈ t.outputs, ∀ back, o.back = some back →
          v.store.Recorded back ∧ back.transaction ≠ t.id) ∧
    (∀ e, v.commit now t = .error e ↔ v.store.Fault t e) ∧
    (∀ e log, v.commit now t = .error e → offer (v, log) (now, t) = (v, log)) ∧
    ∀ change w, v.commit now t = .ok (change, w) → v.Applied now t change w := by
  have hs := hv.sound
  refine ⟨?_, fun e => ?_, fun e log => offer_of_error, fun change w => hv.applied hsize⟩
  · rw [exists_commit_iff, Store.commit_eq_ok_iff, hs.indexed.accepts_iff]
    constructor
    · rintro ⟨hfresh, ⟨hdistinct, hcurrent⟩, hlinked⟩
      refine ⟨hfresh, hdistinct, hcurrent, fun o ho back hback => ?_⟩
      -- What is recorded belongs to older transactions.
      have hrecorded := hlinked o ho back hback
      exact ⟨hrecorded, hs.transaction_ne_of_recorded hfresh hrecorded⟩
    · rintro ⟨hfresh, hdistinct, hcurrent, hlinked⟩
      exact ⟨hfresh, ⟨hdistinct, hcurrent⟩, fun o ho back hback => (hlinked o ho back hback).1⟩
  · rw [commit_eq_error_iff, hs.indexed.commit_eq_error_iff]

/-- After a record was opened and passed on once, the newer version can be passed on together with
    a new record. A transaction with several faults is rejected for the first: its second input is
    consumed already, its third is named twice and its fourth is unknown. An output that follows
    another one of its own transaction is rejected. -/
theorem commit_all_or_nothing_openedAndPassedOn :
    let v := (recordAll {} openedAndPassedOn).1
    let version (n : Nat) : RecordRef := ⟨.ofNumber n, 0⟩
    let output (back : Option RecordRef) : Output := ⟨back, [.any], .null, [], none⟩
    let passing : Transaction :=
      ⟨.ofNumber 4, [version 2], [output none, output (some (version 2))]⟩
    let faulty : Transaction :=
      ⟨.ofNumber 4, [version 2, version 1, version 2, version 9], [output (some (version 9))]⟩
    let following : Transaction :=
      ⟨.ofNumber 4, [version 2], [output none, output (some (version 4))]⟩
    v.Reachable ∧
      (∃ change w, v.commit .epoch passing = .ok (change, w) ∧ v.Applied .epoch passing change w) ∧
      v.commit .epoch faulty = .error (.alreadyConsumed (version 1)) ∧
      v.commit .epoch following = .error (.chainViolation (following.outputRef 1)
        ("predecessor " ++ (version 4).render ++ " is not recorded")) := by
  intro v version output passing faulty following
  have hreachable : v.Reachable := .recordAll {} (by decide)
  obtain ⟨haccept, -, -, happlied⟩ :=
    commit_all_or_nothing hreachable .epoch passing (by decide)
  obtain ⟨-, hfaulty, -⟩ := commit_all_or_nothing hreachable .epoch faulty (by decide)
  obtain ⟨-, hfollowing, -⟩ := commit_all_or_nothing hreachable .epoch following (by decide)
  have hpasses : ∃ result, v.commit .epoch passing = .ok result := by
    refine haccept.2 ⟨by decide, by decide, by decide, fun o ho back hback => ?_⟩
    simp only [passing, List.mem_cons, List.not_mem_nil, or_false] at ho
    rcases ho with rfl | rfl
    · cases hback
    · cases hback
      decide
  obtain ⟨⟨change, w⟩, hcommit⟩ := hpasses
  have hsecond : faulty.inputs = [version 2] ++ version 1 :: [version 2, version 9] := rfl
  have hlast : following.outputs = [output none] ++ output (some (version 4)) :: [] := rfl
  refine ⟨hreachable, ⟨change, w, hcommit, happlied change w hcommit⟩, (hfaulty _).2 ?_,
    (hfollowing _).2 ?_⟩
  · exact .input (by decide) hsecond (by decide) (.spent (by decide) (.inl (by decide)))
  · refine .output (by decide) (by decide) hlast (fun o ho back hback => ?_) rfl (by decide)
    rw [List.mem_singleton.1 ho] at hback
    cases hback

end Vault

end LedgerQuery
