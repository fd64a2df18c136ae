/-
  LedgerQuery.Proofs.Vault.Commute

  Two transactions that a vault would both accept, committed one after the other. A commit takes
  nothing from the other transaction but the inputs that the two share: the transaction stays new,
  the predecessors of its outputs stay recorded, and the other inputs stay current. So it is still
  acceptable if they share none (`Store.Committed.accepts_after`); if they do, the first shared one
  is a fault (`Store.Committed.fault_after`). The two orders put the same records into different
  slots, and their times may differ (`Store.Committed.untimed_perm`), neither of which queries by
  reference show. Main statement: `commits_commute`.
-/
import LedgerQuery.Proofs.Query.Untimed
import LedgerQuery.Proofs.Vault.Acceptance

namespace LedgerQuery

/-- The first input of a transaction that another one consumes as well. -/
def Transaction.clash? (t other : Transaction) : Option RecordRef :=
  t.inputs.find? fun input => input ∈ other.inputs

/-! ## Stores -/

namespace Store

variable {s s' s'' : Store} {now now' : Instant} {relevant : List Party → Bool}
  {a b : Transaction} {change change' : Update} {r : RecordRef}

/-! ### Acceptance after a commit -/

namespace Committed

/-- A commit leaves every reference recorded. -/
theorem recorded (h : Committed relevant now a s change s') (hr : s.Recorded r) :
    s'.Recorded r := by
  obtain ⟨record, hmem, rfl⟩ := hr
  refine ⟨mark now a.inputs record, ?_, mark_reference _ _⟩
  rw [h.records_eq]
  exact List.mem_append_left _ (List.mem_map_of_mem hmem)

/-- A commit leaves records current that are not among its inputs. -/
theorem current (h : Committed relevant now a s change s') (hr : s.Current r)
    (hkept : r ∉ a.inputs) : s'.Current r := by
  obtain ⟨record, hmem, rfl, hstatus⟩ := hr
  refine ⟨record, ?_, rfl, hstatus⟩
  rw [h.records_eq]
  refine List.mem_append_left _ (List.mem_map.2 ⟨record, hmem, ?_⟩)
  rw [mark, if_neg hkept]

/-- No input of a commit is current afterwards. -/
theorem not_current (h : Committed relevant now a s change s') (hs : s.Sound)
    (hr : r ∈ a.inputs) : ¬ s'.Current r := by
  rintro ⟨record, hmem, rfl, hstatus⟩
  rcases h.of_mem hmem with ⟨old, hold, rfl⟩ | hnew
  · rw [mark_reference] at hr
    rw [mark, if_pos hr] at hstatus
    cases hstatus
  · -- An output is none of the inputs, which were recorded before.
    have hrecorded := (hs.indexed.accepts_iff.1 h.accepts).2.1.2 record.reference hr
    exact hs.transaction_ne_of_recorded h.accepts.fresh hrecorded.recorded
      (of_mem_producedBy hnew).1

/-- A transaction that shares no input with a commit stays acceptable. -/
theorem accepts_after (h : Committed relevant now a s change s') (hs : s.Indexed)
    (hs' : s'.Indexed) (hb : s.Accepts b) (hid : a.id ≠ b.id)
    (hdisjoint : ∀ i ∈ b.inputs, i ∉ a.inputs) : s'.Accepts b := by
  obtain ⟨hfresh, ⟨hdistinct, hcurrent⟩, hlinked⟩ := hs.accepts_iff.1 hb
  refine hs'.accepts_iff.2 ⟨?_, ⟨hdistinct, fun i hi => ?_⟩, fun o ho back hback => ?_⟩
  · rw [h.transactions_eq, List.mem_cons, not_or]
    exact ⟨hid.symm, hfresh⟩
  · exact h.current (hcurrent i hi) (hdisjoint i hi)
  · exact h.recorded (hlinked o ho back hback)

/-- If it shares inputs with the commit, the first of them is its first fault. -/
theorem fault_after (h : Committed relevant now a s change s') (hs : s.Sound) (hb : s.Accepts b)
    (hid : a.id ≠ b.id) (hclash : b.clash? a = some r) : s'.Fault b (.alreadyConsumed r) := by
  obtain ⟨hfresh, ⟨hdistinct, hcurrent⟩, -⟩ := hs.indexed.accepts_iff.1 hb
  obtain ⟨hshared, before, after, hsplit, hbefore⟩ := List.find?_eq_some_iff_append.1 hclash
  rw [hsplit] at hdistinct hcurrent
  have hr : s.Current r := hcurrent r (List.mem_append_right _ List.mem_cons_self)
  have hconsumable : s'.Consumable before := by
    refine ⟨(List.nodup_append.1 hdistinct).1, fun i hi => ?_⟩
    -- Inputs before the first shared one are not shared.
    exact h.current (hcurrent i (List.mem_append_left _ hi)) (by simpa using hbefore i hi)
  refine .input ?_ hsplit hconsumable (.spent (h.recorded hr.recorded) (.inl ?_))
  · rw [h.transactions_eq, List.mem_cons, not_or]
    exact ⟨hid.symm, hfresh⟩
  · exact h.not_current hs (by simpa using hshared)

end Committed

/-! ### Records, their times aside -/

/-- The records of a store, their times aside. -/
def untimed (s : Store) : List StoredRecord := s.records.map StoredRecord.untimed

theorem untimed_mark (inputs : List RecordRef) (record : StoredRecord) :
    (mark now inputs record).untimed = mark .epoch inputs record.untimed := by
  unfold mark
  by_cases h : record.reference ∈ inputs
  · rw [if_pos h, if_pos (show record.untimed.reference ∈ inputs from h)]
    rfl
  · rw [if_neg h, if_neg (show record.untimed.reference ∉ inputs from h)]

theorem map_untimed_producedBy :
    (producedBy relevant now a).map StoredRecord.untimed = producedBy relevant .epoch a := by
  refine List.ext_getElem? fun i => ?_
  rw [producedBy, producedBy, List.getElem?_map, List.getElem?_mapIdx, List.getElem?_mapIdx,
    Option.map_map]
  rfl

/-- It does not matter in which order records are consumed. -/
theorem mark_comm (xs ys : List RecordRef) (record : StoredRecord) :
    mark now xs (mark now ys record) = mark now ys (mark now xs record) := by
  by_cases hx : record.reference ∈ xs <;> by_cases hy : record.reference ∈ ys <;>
    simp [mark, hx, hy, consumed]

/-- No output of a new transaction is among the inputs of an acceptable one. -/
theorem Sound.map_mark_producedBy (hs : s.Sound) (hfresh : a.id ∉ s.transactions)
    (hb : s.Accepts b) : (producedBy relevant now a).map (mark now' b.inputs) =
      producedBy relevant now a := by
  have hsame : ∀ record ∈ producedBy relevant now a, mark now' b.inputs record = record := by
    intro record hrecord
    refine if_neg fun hin => ?_
    have hcurrent := (hs.indexed.accepts_iff.1 hb).2.1.2 record.reference hin
    exact hs.transaction_ne_of_recorded hfresh hcurrent.recorded (of_mem_producedBy hrecord).1
  exact (List.map_congr_left hsame).trans (List.map_id _)

namespace Committed

/-- What a commit does to the records, their times aside. -/
theorem untimed_eq (h : Committed relevant now a s change s') :
    s'.untimed = s.untimed.map (mark .epoch a.inputs) ++ producedBy relevant .epoch a := by
  rw [untimed, h.records_eq, List.map_append, map_untimed_producedBy, untimed, List.map_map,
    List.map_map]
  congr 1
  exact List.map_congr_left fun record _ => untimed_mark _ _

/-- What two commits do, if the second transaction was acceptable before the first. -/
theorem untimed_eq_of_after (h : Committed relevant now a s change s') (hs : s.Sound)
    (hb : s.Accepts b) (h' : Committed relevant now' b s' change' s'') :
    s''.untimed = s.untimed.map (mark .epoch b.inputs ∘ mark .epoch a.inputs) ++
      (producedBy relevant .epoch a ++ producedBy relevant .epoch b) := by
  rw [h'.untimed_eq, h.untimed_eq, List.map_append, List.map_map,
    hs.map_mark_producedBy h.accepts.fresh hb, List.append_assoc]

/-- The two orders of two transactions lead to the same records. -/
theorem untimed_perm {now₁ now₂ now₃ now₄ : Instant} {change₁ change₂ change₃ change₄ : Update}
    {sa sb sab sba : Store} (hs : s.Sound) (ha : Committed relevant now₁ a s change₁ sa)
    (hab : Committed relevant now₂ b sa change₂ sab) (hb : Committed relevant now₃ b s change₃ sb)
    (hba : Committed relevant now₄ a sb change₄ sba) : sab.untimed.Perm sba.untimed := by
  rw [ha.untimed_eq_of_after hs hb.accepts hab, hb.untimed_eq_of_after hs ha.accepts hba]
  -- The outputs come in two orders, and the marks on the old records commute.
  have hmarks : mark Instant.epoch b.inputs ∘ mark Instant.epoch a.inputs =
      mark Instant.epoch a.inputs ∘ mark Instant.epoch b.inputs :=
    funext fun record => mark_comm _ _ _
  rw [hmarks]
  exact List.perm_append_comm.append_left _

end Committed

/-! ### Answers, times aside -/

/-- A look-up finds the one record with the reference, its times aside. -/
theorem Indexed.map_untimed_get?_eq_some_iff (hs : s.Indexed) {record : StoredRecord} :
    (s.get? r).map StoredRecord.untimed = some record ↔
      record ∈ s.untimed ∧ record.reference = r := by
  rw [Option.map_eq_some_iff, untimed, List.mem_map]
  constructor
  · rintro ⟨found, hfound, rfl⟩
    obtain ⟨hmem, href⟩ := hs.get?_eq_some_iff.1 hfound
    exact ⟨⟨found, hmem, rfl⟩, href⟩
  · rintro ⟨⟨found, hmem, rfl⟩, href⟩
    exact ⟨found, hs.get?_eq_some_iff.2 ⟨hmem, href⟩, rfl⟩

variable {s₁ s₂ : Store} {q : Query}

/-- Stores with the same records find the same under every reference. -/
theorem get_untimed_eq (h₁ : s₁.Indexed) (h₂ : s₂.Indexed) (hperm : s₁.untimed.Perm s₂.untimed)
    (r : RecordRef) :
    (s₁.get r).map StoredRecord.untimed = (s₂.get r).map StoredRecord.untimed := by
  have hfound : (s₁.get? r).map StoredRecord.untimed = (s₂.get? r).map StoredRecord.untimed := by
    refine Option.ext fun record => ?_
    rw [h₁.map_untimed_get?_eq_some_iff, h₂.map_untimed_get?_eq_some_iff, hperm.mem_iff]
  unfold get
  cases hget : s₁.get? r with
  | none =>
    rw [hget, Option.map_none] at hfound
    rw [Option.map_eq_none_iff.1 hfound.symm]
  | some record =>
    rw [hget, Option.map_some] at hfound
    obtain ⟨other, hother, hsame⟩ := Option.map_eq_some_iff.1 hfound.symm
    rw [hother]
    exact congrArg Except.ok hsame.symm

/-- They select the same records for a query by reference, in the same order. -/
theorem select_untimed_eq (h₁ : s₁.Indexed) (h₂ : s₂.Indexed)
    (hperm : s₁.untimed.Perm s₂.untimed) (hq : SortOrder.referenceFirst q.sort.columns = true) :
    (s₁.select q).map StoredRecord.untimed = (s₂.select q).map StoredRecord.untimed := by
  have hfilter (s : Store) : (s.records.filter q.criteria.admits).map StoredRecord.untimed =
      s.untimed.filter q.criteria.admits := by
    rw [untimed, List.filter_map]
    congr 2
    exact funext fun record => (q.criteria.admits_untimed record).symm
  refine SortOrder.arrange_untimed_eq hq ?_ (h₁.nodup_filter _) (h₂.nodup_filter _)
  rw [hfilter, hfilter]
  exact hperm.filter _

/-- They give the same pages. -/
theorem page_untimed_eq (h₁ : s₁.Indexed) (h₂ : s₂.Indexed)
    (hperm : s₁.untimed.Perm s₂.untimed) (hq : SortOrder.referenceFirst q.sort.columns = true) :
    (s₁.page q).untimed = (s₂.page q).untimed := by
  have hselect := select_untimed_eq h₁ h₂ hperm hq
  have hlength := congrArg List.length hselect
  rw [List.length_map, List.length_map] at hlength
  simp only [page, Page.untimed, List.map_take, List.map_drop, hselect, hlength]

end Store

/-! ## Vaults -/

namespace Vault

variable {v va vb vab vba : Vault} {now nowA nowB laterA laterB : Instant}
  {a b : Transaction} {change changeA changeB changeAB changeBA : Update}

theorem config_commit (h : v.commit now a = .ok (change, va)) : va.config = v.config := by
  rw [(commit_eq_ok h).2]

/-- A transaction that was acceptable before a commit is accepted afterwards exactly if it shares
    no input with it; if not, it is rejected for the first input that it shares. -/
theorem Reachable.commit_after (hv : v.Reachable) (hsize : a.outputs.length ≤ UInt32.size)
    (ha : v.commit now a = .ok (change, va)) (hb : v.store.Accepts b) (hid : a.id ≠ b.id)
    (later : Instant) :
    ((∃ result, va.commit later b = .ok result) ↔ ∀ i ∈ b.inputs, i ∉ a.inputs) ∧
      ∀ i, b.clash? a = some i → va.commit later b = .error (.alreadyConsumed i) := by
  have hs := hv.sound
  obtain ⟨hcommit, -⟩ := commit_eq_ok ha
  have hs' := hs.commit hsize hcommit
  have hc := hs.indexed.committed hcommit
  have hclash (i : RecordRef) (hi : b.clash? a = some i) :
      va.commit later b = .error (.alreadyConsumed i) := by
    rw [commit_eq_error_iff, hs'.indexed.commit_eq_error_iff]
    exact hc.fault_after hs hb hid hi
  refine ⟨⟨fun ⟨result, hok⟩ => ?_, fun hdisjoint => ?_⟩, hclash⟩
  · -- The first input that is shared would be the reason for a rejection.
    cases hshared : b.clash? a with
    | none => simpa [Transaction.clash?] using hshared
    | some i =>
      rw [hclash i hshared] at hok
      cases hok
  · rw [exists_commit_iff, Store.commit_eq_ok_iff]
    exact hc.accepts_after hs.indexed hs'.indexed hb hid hdisjoint

theorem clash?_of_shared {i : RecordRef} (hi : i ∈ b.inputs) (hshared : i ∈ a.inputs) :
    ∃ first, b.clash? a = some first := by
  rw [← Option.isSome_iff_exists, Transaction.clash?, List.find?_isSome]
  exact ⟨i, hi, by simpa using hshared⟩

/-- The two orders of two transactions lead to vaults that answer the same, times aside. -/
theorem Reachable.answers_agree (hv : v.Reachable) (hsizeA : a.outputs.length ≤ UInt32.size)
    (hsizeB : b.outputs.length ≤ UInt32.size) (ha : v.commit nowA a = .ok (changeA, va))
    (hb : v.commit nowB b = .ok (changeB, vb)) (hab : va.commit laterB b = .ok (changeAB, vab))
    (hba : vb.commit laterA a = .ok (changeBA, vba)) :
    (∀ r, (vab.store.get r).map StoredRecord.untimed = (vba.store.get r).map StoredRecord.untimed) ∧
      (∀ id, id ∈ vab.store.transactions ↔ id ∈ vba.store.transactions) ∧
      ∀ q : Query, SortOrder.referenceFirst q.sort.columns = true →
        (vab.query q).map Page.untimed = (vba.query q).map Page.untimed := by
  have hva := hv.commit hsizeA ha
  have hvb := hv.commit hsizeB hb
  have hindexed := (hva.commit hsizeB hab).sound.indexed
  have hindexed' := (hvb.commit hsizeA hba).sound.indexed
  have hca := hv.sound.indexed.committed (commit_eq_ok ha).1
  have hcb := hv.sound.indexed.committed (commit_eq_ok hb).1
  have hcab := hva.sound.indexed.committed (commit_eq_ok hab).1
  have hcba := hvb.sound.indexed.committed (commit_eq_ok hba).1
  -- All commits judge relevance by one configuration.
  rw [config_commit ha] at hcab
  rw [config_commit hb] at hcba
  have hperm := Store.Committed.untimed_perm hv.sound hca hcab hcb hcba
  refine ⟨Store.get_untimed_eq hindexed hindexed' hperm, fun id => ?_, fun q hq => ?_⟩
  · rw [hcab.transactions_eq, hca.transactions_eq, hcba.transactions_eq, hcb.transactions_eq]
    simp only [List.mem_cons]
    exact or_left_comm
  · have hconfig : vab.config = vba.config := by
      rw [config_commit hab, config_commit ha, config_commit hba, config_commit hb]
    unfold query
    rw [hconfig]
    split
    · rfl
    · exact congrArg Except.ok (Store.page_untimed_eq hindexed hindexed' hperm hq)

/-- Two transactions that a vault would both accept can be committed one after the other, in either
    order, exactly if they share no input; all four commits may happen at times of their own. Both
    orders then lead to the same records under all references and to the same transactions, times
    aside, and a query whose columns get to the reference before they get to a time is answered the
    same. If they share an input, the second transaction is rejected in either order for the first
    of its inputs that the other one has consumed, and the vault stays as the first left it. -/
theorem commits_commute {v va vb : Vault} (hv : v.Reachable) {a b : Transaction} (hid : a.id ≠ b.id)
    (hsizeA : a.outputs.length ≤ UInt32.size) (hsizeB : b.outputs.length ≤ UInt32.size)
    {nowA nowB : Instant} {changeA changeB : Update} (ha : v.commit nowA a = .ok (changeA, va))
    (hb : v.commit nowB b = .ok (changeB, vb)) (laterA laterB : Instant) :
    ((∃ result, va.commit laterB b = .ok result) ↔ ∀ i ∈ a.inputs, i ∉ b.inputs) ∧
    ((∃ result, vb.commit laterA a = .ok result) ↔ ∀ i ∈ a.inputs, i ∉ b.inputs) ∧
    (∀ changeAB vab changeBA vba, va.commit laterB b = .ok (changeAB, vab) →
      vb.commit laterA a = .ok (changeBA, vba) →
      (∀ r, (vab.store.get r).map StoredRecord.untimed =
        (vba.store.get r).map StoredRecord.untimed) ∧
      (∀ id, id ∈ vab.store.transactions ↔ id ∈ vba.store.transactions) ∧
      ∀ q : Query, SortOrder.referenceFirst q.sort.columns = true →
        (vab.query q).map Page.untimed = (vba.query q).map Page.untimed) ∧
    ∀ i ∈ a.inputs, i ∈ b.inputs →
      (∃ first, b.clash? a = some first ∧
        va.commit laterB b = .error (.alreadyConsumed first) ∧
        ∀ log, offer (va, log) (laterB, b) = (va, log)) ∧
      ∃ first, a.clash? b = some first ∧
        vb.commit laterA a = .error (.alreadyConsumed first) ∧
        ∀ log, offer (vb, log) (laterA, a) = (vb, log) := by
  -- Either transaction is looked at after the other one.
  have hacceptsA := Store.commit_eq_ok_iff.1 ⟨_, (commit_eq_ok ha).1⟩
  have hacceptsB := Store.commit_eq_ok_iff.1 ⟨_, (commit_eq_ok hb).1⟩
  obtain ⟨hafterA, hclashA⟩ := hv.commit_after hsizeA ha hacceptsB hid laterB
  obtain ⟨hafterB, hclashB⟩ := hv.commit_after hsizeB hb hacceptsA hid.symm laterA
  refine ⟨hafterA.trans ?_, hafterB, ?_, fun i hiA hiB => ⟨?_, ?_⟩⟩
  · exact ⟨fun h i hiA hiB => h i hiB hiA, fun h i hiB hiA => h i hiA hiB⟩
  · exact fun changeAB vab changeBA vba => hv.answers_agree hsizeA hsizeB ha hb
  · obtain ⟨first, hfirst⟩ := clash?_of_shared hiB hiA
    exact ⟨first, hfirst, hclashA first hfirst, fun log => offer_of_error (hclashA first hfirst)⟩
  · obtain ⟨first, hfirst⟩ := clash?_of_shared hiA hiB
    exact ⟨first, hfirst, hclashB first hfirst, fun log => offer_of_error (hclashB first hfirst)⟩

/-- Two records are opened by one transaction. -/
def openedTogether : List (Instant × Transaction) :=
  let output : Output := ⟨none, [.any], .null, [], none⟩
  [(.epoch, ⟨.ofNumber 1, [], [output, output]⟩)]

/-- Each of two records can be passed on before or after the other, here at noon or at midnight. A
    transaction that consumes both is rejected after one of them was passed on. -/
theorem commits_commute_openedTogether :
    let v := (recordAll {} openedTogether).1
    let record (i : UInt32) : RecordRef := ⟨.ofNumber 1, i⟩
    let passing (n : Nat) (r : RecordRef) : Transaction :=
      ⟨.ofNumber n, [r], [⟨some r, [.any], .null, [], none⟩]⟩
    let joining : Transaction := ⟨.ofNumber 4, [record 1, record 0], []⟩
    let noon : Instant := ⟨1970, 1, 1, 12, 0, 0, 0, by decide⟩
    v.Reachable ∧ ∃ changeA va changeB vb changeC vc,
      v.commit .epoch (passing 2 (record 0)) = .ok (changeA, va) ∧
      v.commit noon (passing 3 (record 1)) = .ok (changeB, vb) ∧
      v.commit noon joining = .ok (changeC, vc) ∧
      (∃ changeAB vab changeBA vba,
        va.commit .epoch (passing 3 (record 1)) = .ok (changeAB, vab) ∧
        vb.commit noon (passing 2 (record 0)) = .ok (changeBA, vba) ∧
        (vab.store.get ⟨.ofNumber 3, 0⟩).map StoredRecord.untimed =
          (vba.store.get ⟨.ofNumber 3, 0⟩).map StoredRecord.untimed ∧
        (vab.query ⟨.forType .any .all, .initial, .on .reference .descending⟩).map Page.untimed =
          (vba.query ⟨.forType .any .all, .initial, .on .reference .descending⟩).map Page.untimed) ∧
      va.commit noon joining = .error (.alreadyConsumed (record 0)) := by
  intro v record passing joining noon
  have hreachable : v.Reachable := .recordAll {} (by decide)
  obtain ⟨⟨changeA, va⟩, ha⟩ : ∃ result, v.commit .epoch (passing 2 (record 0)) = .ok result :=
    ⟨_, rfl⟩
  obtain ⟨⟨changeB, vb⟩, hb⟩ : ∃ result, v.commit noon (passing 3 (record 1)) = .ok result :=
    ⟨_, rfl⟩
  obtain ⟨⟨changeC, vc⟩, hc⟩ : ∃ result, v.commit noon joining = .ok result := ⟨_, rfl⟩
  obtain ⟨hafterA, hafterB, hagree, -⟩ :=
    commits_commute hreachable (by decide) (by decide) (by decide) ha hb noon .epoch
  obtain ⟨-, -, -, hclash⟩ :=
    commits_commute hreachable (by decide) (by decide) (by decide) ha hc noon noon
  obtain ⟨⟨changeAB, vab⟩, hab⟩ := hafterA.2 (by decide)
  obtain ⟨⟨changeBA, vba⟩, hba⟩ := hafterB.2 (by decide)
  obtain ⟨hfound, -, hanswered⟩ := hagree changeAB vab changeBA vba hab hba
  obtain ⟨⟨first, hfirst, hrejected, -⟩, -⟩ := hclash (record 0) (by decide) (by decide)
  have hshared : joining.clash? (passing 2 (record 0)) = some (record 0) := by decide
  rw [hshared] at hfirst
  cases hfirst
  exact ⟨hreachable, changeA, va, changeB, vb, changeC, vc, ha, hb, hc,
    ⟨changeAB, vab, changeBA, vba, hab, hba, hfound _, hanswered _ rfl⟩, hrejected⟩

end Vault

end LedgerQuery
