/-
  LedgerQuery.Proofs.Vault.History

  The history of a record: the versions it goes back to, one back link after the other. Back links
  lead to smaller slots, so in a sound store the walk ends, and what it visits is a chain
  (`Sound.ancestry_eq`); the other way round, the slots of a chain of recorded versions ascend
  (`Sound.slots_ascend`), so that no version stands in it twice, which the check of chains alone
  does not see to. Main statement: `ancestry_verified`.
-/
import LedgerQuery.Proofs.Record.Chain
import LedgerQuery.Proofs.Vault.Reachable

namespace LedgerQuery

namespace Store

variable {s : Store}

/-- Follow back links from a record for at most a number of steps, looking each reference up; the
    records visited, oldest first. -/
def ancestry (s : Store) : (steps : Nat) → StoredRecord → Except VaultError (List StoredRecord)
  | 0, r => .ok [r]
  | steps + 1, r =>
    match r.back with
    | none => .ok [r]
    | some back =>
      match s.get back with
      | .error e => .error e
      | .ok predecessor => (s.ancestry steps predecessor).map (· ++ [r])

/-! ## The walk -/

theorem Sound.ne_back (hs : s.Sound) {r : StoredRecord} (hr : r ∈ s.records) :
    r.back ≠ some r.reference := by
  intro hback
  obtain ⟨slot, hslot⟩ := List.mem_iff_getElem?.1 hr
  obtain ⟨earlier, hlt, hearlier⟩ := hs.linked slot r r.reference hslot hback
  rw [hs.indexed.slot?_of_getElem? hslot] at hearlier
  exact absurd (Option.some.inj hearlier) (by omega)

/-- The predecessor of a record is found, in a smaller slot. -/
theorem Sound.get_back (hs : s.Sound) {slot : Nat} {r : StoredRecord} {back : RecordRef}
    (hslot : s.records[slot]? = some r) (hback : r.back = some back) :
    ∃ earlier predecessor, earlier < slot ∧ s.records[earlier]? = some predecessor ∧
      predecessor.reference = back ∧ s.get back = .ok predecessor := by
  obtain ⟨earlier, hlt, hearlier⟩ := hs.linked slot r back hslot hback
  obtain ⟨predecessor, hrecord, href⟩ :=
    Option.map_eq_some_iff.1 ((hs.indexed back earlier).1 hearlier)
  exact ⟨earlier, predecessor, hlt, hrecord, href,
    hs.indexed.get_eq_ok_iff.2 ⟨List.mem_of_getElem? hrecord, href⟩⟩

/-- The walk from a record ends at a version without a predecessor, after no more steps than there
    are slots below the record; what it visits is a chain that ends with the record. -/
theorem Sound.ancestry_eq (hs : s.Sound) {slot : Nat} {r : StoredRecord}
    (hslot : s.records[slot]? = some r) :
    ∃ path : List StoredRecord, path.length ≤ slot + 1 ∧ path.getLast? = some r ∧
      (∀ first ∈ path.head?, first.back = none) ∧
      Chain.verify (path.map StoredRecord.link) = .ok () ∧
      ∀ steps, path.length ≤ steps + 1 → s.ancestry steps r = .ok path := by
  -- On the slot, which goes down with every step.
  induction slot using Nat.strongRecOn generalizing r with
  | ind slot ih =>
    have hself := hs.ne_back (List.mem_of_getElem? hslot)
    cases hback : r.back with
    | none =>
      refine ⟨[r], Nat.le_add_left 1 slot, rfl, ?_, ?_, fun steps _ => ?_⟩
      · rintro first hfirst
        cases hfirst
        exact hback
      · exact @Chain.verify_append_singleton [] r.link rfl hself hback
      · cases steps with
        | zero => rfl
        | succ steps => simp only [ancestry, hback]
    | some back =>
      obtain ⟨earlier, predecessor, hlt, hearlier, href, hget⟩ := hs.get_back hslot hback
      obtain ⟨path, hlength, hlast, hfirst, hchain, hwalk⟩ := ih earlier hlt hearlier
      refine ⟨path ++ [r], ?_, List.getLast?_concat, ?_, ?_, fun steps hsteps => ?_⟩
      · rw [List.length_append, List.length_singleton]
        omega
      · cases path with
        | nil => cases hlast
        | cons oldest rest => exact hfirst
      · have hnamed : r.back = (path.map StoredRecord.link).getLast?.map Link.reference := by
          rw [List.getLast?_map, hlast, hback, ← href]
          rfl
        rw [List.map_append]
        exact Chain.verify_append_singleton (l := r.link) hchain hself hnamed
      · rw [List.length_append, List.length_singleton] at hsteps
        cases steps with
        | zero =>
          -- A path to the predecessor is not empty, so a walk of no steps is too short.
          have hempty : path = [] := List.eq_nil_of_length_eq_zero (by omega)
          rw [hempty] at hlast
          cases hlast
        | succ steps =>
          simp only [ancestry, hback, hget, hwalk steps (by omega)]
          rfl

/-! ## Chains of recorded versions -/

/-- The slots of a chain of recorded versions ascend. -/
theorem Sound.slots_ascend (hs : s.Sound) {path : List StoredRecord}
    (hpath : ∀ r ∈ path, r ∈ s.records)
    (hchain : (path.map StoredRecord.link).IsChain Link.Succeeds) :
    ∃ slots : List Nat, slots.Pairwise (· < ·) ∧
      path.map (fun r => s.slot? r.reference) = slots.map some := by
  have hslot : ∀ r ∈ path, s.slot? r.reference = some ((s.slot? r.reference).getD 0) := by
    intro r hr
    obtain ⟨slot, hslot⟩ := List.mem_iff_getElem?.1 (hpath r hr)
    rw [hs.indexed.slot?_of_getElem? hslot]
    rfl
  refine ⟨path.map fun r => (s.slot? r.reference).getD 0, ?_, ?_⟩
  · rw [List.isChain_map] at hchain
    rw [← List.isChain_iff_pairwise, List.isChain_map]
    -- Each version stands above the one it names, and so, link by link, above all before it.
    refine hchain.imp_of_mem_imp fun earlier later _ hlater hnext => ?_
    obtain ⟨slot, hlaterSlot⟩ := List.mem_iff_getElem?.1 (hpath later hlater)
    obtain ⟨below, hlt, hbelow⟩ := hs.linked slot later earlier.reference hlaterSlot hnext
    rw [hs.indexed.slot?_of_getElem? hlaterSlot, hbelow]
    exact hlt
  · rw [List.map_map]
    exact List.map_congr_left hslot

end Store

namespace Vault

open Store

/-- Every record of a reachable vault has a history: following back links, a reference is never
    unknown, and after fewer steps than there are records the walk is at a version without a
    predecessor; the versions visited are accepted as a chain. The other way round, an accepted
    chain of recorded versions has no version twice, and their slots ascend. -/
theorem ancestry_verified {v : Vault} (hv : v.Reachable) :
    (∀ r ∈ v.store.records, ∃ path : List StoredRecord,
      path.length ≤ v.store.records.length ∧ path.getLast? = some r ∧
      (∀ first ∈ path.head?, first.back = none) ∧
      Chain.verify (path.map StoredRecord.link) = .ok () ∧
      ∀ steps, path.length ≤ steps + 1 → v.store.ancestry steps r = .ok path) ∧
    ∀ path : List StoredRecord, (∀ r ∈ path, r ∈ v.store.records) →
      Chain.verify (path.map StoredRecord.link) = .ok () →
      (path.map StoredRecord.reference).Nodup ∧
      ∃ slots : List Nat, slots.Pairwise (· < ·) ∧
        path.map (fun r => v.store.slot? r.reference) = slots.map some := by
  have hs := hv.sound
  refine ⟨fun r hr => ?_, fun path hpath hverified => ?_⟩
  · obtain ⟨slot, hslot⟩ := List.mem_iff_getElem?.1 hr
    obtain ⟨hlt, -⟩ := List.getElem?_eq_some_iff.1 hslot
    obtain ⟨path, hlength, hrest⟩ := hs.ancestry_eq hslot
    exact ⟨path, by omega, hrest⟩
  · obtain ⟨slots, hascend, hslots⟩ :=
      hs.slots_ascend hpath (Chain.verify_eq_ok_iff.1 hverified).2.2
    refine ⟨?_, slots, hascend, hslots⟩
    -- Equal references would stand in one slot, and no slot is there twice.
    have hnodup : (slots.map some).Nodup :=
      (hascend.imp fun h => Nat.ne_of_lt h).map some fun _ _ hne heq => hne (Option.some.inj heq)
    rw [← hslots, ← Function.comp_def, ← List.map_map] at hnodup
    exact List.Pairwise.of_map _ (fun a b hne heq => hne (congrArg _ heq)) hnodup

/-- A record is opened and passed on twice. -/
def passedOnTwice : List (Instant × Transaction) :=
  let version (n : Nat) : RecordRef := ⟨.ofNumber n, 0⟩
  let step (n : Nat) (before : Option RecordRef) : Instant × Transaction :=
    (.epoch, ⟨.ofNumber n, before.toList, [⟨before, [.any], .null, [], none⟩]⟩)
  [step 1 none, step 2 (some (version 1)), step 3 (some (version 2))]

theorem ancestry_verified_passedOnTwice :
    let v := (recordAll {} passedOnTwice).1
    (∀ call ∈ passedOnTwice, call.2.outputs.length ≤ UInt32.size) ∧
      v.store.records.length = 3 ∧
      Chain.verify (v.store.records.map StoredRecord.link) = .ok () ∧
      (v.store.records.map StoredRecord.reference).Nodup ∧
      ∀ r ∈ v.store.records, ∃ path : List StoredRecord, path.length ≤ 3 ∧
        v.store.ancestry 3 r = .ok path ∧
        Chain.verify (path.map StoredRecord.link) = .ok () := by
  intro v
  have hsize : ∀ call ∈ passedOnTwice, call.2.outputs.length ≤ UInt32.size := by decide
  have hlength : v.store.records.length = 3 := by decide
  have hchain : Chain.verify (v.store.records.map StoredRecord.link) = .ok () := by decide
  obtain ⟨hwalk, hdistinct⟩ := ancestry_verified (Reachable.recordAll {} hsize)
  refine ⟨hsize, hlength, hchain, (hdistinct _ (fun _ hr => hr) hchain).1, fun r hr => ?_⟩
  obtain ⟨path, hshort, -, -, hverified, hpath⟩ := hwalk r hr
  have hthree : path.length ≤ 3 := hlength ▸ hshort
  exact ⟨path, hthree, hpath 3 (by omega), hverified⟩

end Vault

end LedgerQuery
