/-
  LedgerQuery.Proofs.Store.Fault

  Why a transaction is rejected. The checks go through the transaction in a fixed order, and the
  error is that of the first fault they meet: the transaction is known, or else an input cannot be
  consumed, or else an output names a predecessor that is not recorded (`Fault`). The checks fail
  with an error exactly if it is that of the first fault (`check_eq_error_iff`).
-/
import LedgerQuery.Proofs.Store.Commit

namespace LedgerQuery.Store

variable {s : Store} {t : Transaction} {e : VaultError} {r : RecordRef}

/-! ## What is recorded -/

/-- There is a record with a reference. -/
def Recorded (s : Store) (r : RecordRef) : Prop := ∃ record ∈ s.records, record.reference = r

/-- There is a record with a reference that has not been consumed. -/
def Current (s : Store) (r : RecordRef) : Prop :=
  ∃ record ∈ s.records, record.reference = r ∧ record.status = .unconsumed

instance (s : Store) (r : RecordRef) : Decidable (s.Recorded r) :=
  inferInstanceAs (Decidable (∃ record ∈ s.records, record.reference = r))

instance (s : Store) (r : RecordRef) : Decidable (s.Current r) :=
  inferInstanceAs
    (Decidable (∃ record ∈ s.records, record.reference = r ∧ record.status = .unconsumed))

theorem Current.recorded (h : s.Current r) : s.Recorded r := by
  obtain ⟨record, hmem, href, -⟩ := h
  exact ⟨record, hmem, href⟩

theorem Indexed.isSome_slot?_iff (hs : s.Indexed) : (s.slot? r).isSome ↔ s.Recorded r := by
  rw [← Option.ne_none_iff_isSome, ne_eq, hs.slot?_eq_none_iff]
  simp [Recorded]

theorem Indexed.get?_eq_none_iff (hs : s.Indexed) : s.get? r = none ↔ ¬ s.Recorded r := by
  rw [Option.eq_none_iff_forall_ne_some]
  simp only [ne_eq, hs.get?_eq_some_iff, Recorded, not_exists]

/-- An unconsumed record is found by its reference. -/
theorem Indexed.exists_get?_iff (hs : s.Indexed) :
    (∃ record, s.get? r = some record ∧ record.status ≠ .consumed) ↔ s.Current r := by
  simp only [hs.get?_eq_some_iff, Current, and_assoc]
  refine exists_congr fun record => and_congr_right fun _ => and_congr_right fun _ => ?_
  cases record.status <;> simp

/-! ## Faults -/

/-- What is wrong with an input, after others that have been looked at. -/
inductive InputFault (s : Store) (earlier : List RecordRef) (input : RecordRef) :
    VaultError → Prop where
  | unknown (unrecorded : ¬ s.Recorded input) : InputFault s earlier input (.recordNotFound input)
  /-- It has been consumed, or the transaction itself names it a second time. -/
  | spent (recorded : s.Recorded input) (gone : ¬ s.Current input ∨ input ∈ earlier) :
    InputFault s earlier input (.alreadyConsumed input)

/-- References that one transaction can consume together. -/
def Consumable (s : Store) (inputs : List RecordRef) : Prop :=
  inputs.Nodup ∧ ∀ input ∈ inputs, s.Current input

instance (s : Store) (inputs : List RecordRef) : Decidable (s.Consumable inputs) :=
  inferInstanceAs (Decidable (inputs.Nodup ∧ ∀ input ∈ inputs, s.Current input))

/-- Whether the predecessor of an output is recorded, if it has one. -/
def Linked (s : Store) (o : Output) : Prop := ∀ back, o.back = some back → s.Recorded back

/-- The first fault of a transaction, in the order of the checks, with the error that tells of
    it. -/
inductive Fault (s : Store) (t : Transaction) : VaultError → Prop where
  | known (recorded : t.id ∈ s.transactions) : Fault s t (.duplicateTransaction t.id)
  | input {before after : List RecordRef} {input : RecordRef} {e : VaultError}
    (fresh : t.id ∉ s.transactions) (inputs : t.inputs = before ++ input :: after)
    (consumable : s.Consumable before) (fault : InputFault s before input e) : Fault s t e
  | output {before after : List Output} {o : Output} {back : RecordRef}
    (fresh : t.id ∉ s.transactions) (consumable : s.Consumable t.inputs)
    (outputs : t.outputs = before ++ o :: after) (linked : ∀ o' ∈ before, s.Linked o')
    (names : o.back = some back) (unrecorded : ¬ s.Recorded back) :
    Fault s t (.chainViolation (t.outputRef before.length)
      ("predecessor " ++ back.render ++ " is not recorded"))

/-! ## Inputs -/

theorem checkInputs_append (seen before after : List RecordRef) :
    s.checkInputs seen (before ++ after) =
      match s.checkInputs seen before with
      | .ok () => s.checkInputs (before.reverse ++ seen) after
      | .error e => .error e := by
  -- An input that passes goes in front of those that have been seen.
  induction before generalizing seen with
  | nil => rfl
  | cons input rest ih =>
    rw [List.cons_append, checkInputs, checkInputs]
    cases s.get? input with
    | none => rfl
    | some record =>
      dsimp only
      split
      · rfl
      · rw [ih, List.reverse_cons, List.append_assoc, List.singleton_append]

theorem Indexed.checkInputs_eq_ok_iff_consumable (hs : s.Indexed) {inputs : List RecordRef} :
    s.checkInputs [] inputs = .ok () ↔ s.Consumable inputs := by
  rw [checkInputs_eq_ok_iff, Consumable]
  simp only [hs.exists_get?_iff, List.not_mem_nil, not_false_eq_true, implies_true, true_and]

/-- The check of a list fails at its first input exactly if that has a fault. -/
theorem Indexed.checkInputs_cons_eq_error (hs : s.Indexed) {seen rest : List RecordRef}
    {input : RecordRef} (h : InputFault s seen input e) :
    s.checkInputs seen (input :: rest) = .error e := by
  rw [checkInputs]
  cases h with
  | unknown hunrecorded => rw [hs.get?_eq_none_iff.2 hunrecorded]
  | spent hrecorded hgone =>
    cases hget : s.get? input with
    | none => exact absurd hrecorded (hs.get?_eq_none_iff.1 hget)
    | some record =>
      have hbad : record.status = .consumed ∨ input ∈ seen := by
        refine hgone.imp_left fun hnot => ?_
        refine Decidable.by_contra fun hstatus => hnot ?_
        exact hs.exists_get?_iff.1 ⟨record, hget, hstatus⟩
      dsimp only
      rw [if_pos hbad]

/-- The check of inputs that fails has met a fault, and none before. -/
theorem Indexed.exists_inputFault (hs : s.Indexed) {seen inputs : List RecordRef}
    (h : s.checkInputs seen inputs = .error e) :
    ∃ before input after, inputs = before ++ input :: after ∧ s.checkInputs seen before = .ok () ∧
      InputFault s (before.reverse ++ seen) input e := by
  induction inputs generalizing seen with
  | nil => cases h
  | cons input rest ih =>
    rw [checkInputs] at h
    cases hget : s.get? input with
    | none =>
      rw [hget] at h
      cases h
      exact ⟨[], input, rest, rfl, rfl, .unknown (hs.get?_eq_none_iff.1 hget)⟩
    | some record =>
      have hrecorded : s.Recorded input := ⟨record, hs.get?_eq_some_iff.1 hget⟩
      rw [hget] at h
      dsimp only at h
      split at h
      · rename_i hbad
        cases h
        refine ⟨[], input, rest, rfl, rfl,
          .spent hrecorded (hbad.imp_left fun hstatus hcurrent => ?_)⟩
        obtain ⟨found, hfound, hunconsumed⟩ := hs.exists_get?_iff.2 hcurrent
        cases hget.symm.trans hfound
        exact hunconsumed hstatus
      · -- The input is in order, so the fault lies further on.
        rename_i hgood
        obtain ⟨before, faulty, after, hsplit, hok, hfault⟩ := ih h
        refine ⟨input :: before, faulty, after, by rw [hsplit]; rfl, ?_, ?_⟩
        · rw [checkInputs, hget]
          dsimp only
          rw [if_neg hgood, hok]
        · rw [List.reverse_cons, List.append_assoc, List.singleton_append]
          exact hfault

/-- The check of inputs fails with the error of the first that has a fault. -/
theorem Indexed.checkInputs_eq_error_iff (hs : s.Indexed) {inputs : List RecordRef} :
    s.checkInputs [] inputs = .error e ↔ ∃ before input after, inputs = before ++ input :: after ∧
      s.Consumable before ∧ InputFault s before input e := by
  -- The check keeps what it has seen the other way round.
  have hreverse : ∀ {before : List RecordRef} {input : RecordRef},
      InputFault s (before.reverse ++ []) input e ↔ InputFault s before input e := by
    intro before input
    rw [List.append_nil]
    constructor <;> intro h <;> cases h with
    | unknown hunrecorded => exact .unknown hunrecorded
    | spent hrecorded hgone => exact .spent hrecorded (by simpa using hgone)
  constructor
  · intro h
    obtain ⟨before, input, after, hsplit, hok, hfault⟩ := hs.exists_inputFault h
    exact ⟨before, input, after, hsplit, hs.checkInputs_eq_ok_iff_consumable.1 hok,
      hreverse.1 hfault⟩
  · rintro ⟨before, input, after, rfl, hconsumable, hfault⟩
    rw [checkInputs_append, hs.checkInputs_eq_ok_iff_consumable.2 hconsumable]
    exact hs.checkInputs_cons_eq_error (hreverse.2 hfault)

/-! ## Outputs -/

theorem Indexed.checkOutputs_eq_ok_iff_linked (hs : s.Indexed) {id : TransactionId} {index : Nat}
    {outputs : List Output} :
    s.checkOutputs id index outputs = .ok () ↔ ∀ o ∈ outputs, s.Linked o := by
  rw [checkOutputs_eq_ok_iff]
  simp only [hs.isSome_slot?_iff, Linked]

theorem checkOutputs_append (id : TransactionId) (index : Nat) (before after : List Output) :
    s.checkOutputs id index (before ++ after) =
      match s.checkOutputs id index before with
      | .ok () => s.checkOutputs id (index + before.length) after
      | .error e => .error e := by
  induction before generalizing index with
  | nil => rfl
  | cons output rest ih =>
    have hplace : index + (rest.length + 1) = index + 1 + rest.length := by omega
    rw [List.cons_append, checkOutputs, checkOutputs, List.length_cons, hplace]
    cases output.back with
    | none => exact ih (index + 1)
    | some back =>
      dsimp only
      split
      · exact ih (index + 1)
      · rfl

/-- The error that tells of an output without a recorded predecessor. -/
def unlinked (id : TransactionId) (index : Nat) (back : RecordRef) : VaultError :=
  .chainViolation ⟨id, UInt32.ofNat index⟩ ("predecessor " ++ back.render ++ " is not recorded")

/-- The check of outputs that fails has met a predecessor that is not recorded, and none before. -/
theorem Indexed.exists_unlinked (hs : s.Indexed) {id : TransactionId} {index : Nat}
    {outputs : List Output} (h : s.checkOutputs id index outputs = .error e) :
    ∃ before o after back, outputs = before ++ o :: after ∧
      s.checkOutputs id index before = .ok () ∧ o.back = some back ∧ ¬ s.Recorded back ∧
      e = unlinked id (index + before.length) back := by
  induction outputs generalizing index with
  | nil => cases h
  | cons output rest ih =>
    -- If the first output passes, the fault lies further on.
    have hlater (hpass : s.checkOutputs id index [output] = .ok ())
        (h : s.checkOutputs id (index + 1) rest = .error e) :
        ∃ before o after back, output :: rest = before ++ o :: after ∧
          s.checkOutputs id index before = .ok () ∧ o.back = some back ∧ ¬ s.Recorded back ∧
          e = unlinked id (index + before.length) back := by
      obtain ⟨before, o, after, back, hsplit, hok, hrest⟩ := ih h
      refine ⟨output :: before, o, after, back, by rw [hsplit]; rfl, ?_, ?_⟩
      · rw [← List.singleton_append, checkOutputs_append, hpass]
        exact hok
      · rwa [List.length_cons, Nat.add_comm before.length, ← Nat.add_assoc]
    rw [checkOutputs] at h
    cases hback : output.back with
    | none =>
      rw [hback] at h
      exact hlater (by rw [checkOutputs, hback]; rfl) h
    | some back =>
      rw [hback] at h
      dsimp only at h
      split at h
      · rename_i hslot
        exact hlater (by rw [checkOutputs, hback]; exact if_pos hslot) h
      · rename_i hslot
        cases h
        exact ⟨[], output, rest, back, rfl, rfl, hback, mt hs.isSome_slot?_iff.2 hslot, rfl⟩

/-- The check of outputs fails with the error of the first whose predecessor is not recorded. -/
theorem Indexed.checkOutputs_eq_error_iff (hs : s.Indexed) {id : TransactionId}
    {outputs : List Output} :
    s.checkOutputs id 0 outputs = .error e ↔ ∃ before o after back,
      outputs = before ++ o :: after ∧ (∀ o' ∈ before, s.Linked o') ∧ o.back = some back ∧
      ¬ s.Recorded back ∧ e = unlinked id before.length back := by
  constructor
  · intro h
    obtain ⟨before, o, after, back, hsplit, hok, hback, hunrecorded, rfl⟩ := hs.exists_unlinked h
    exact ⟨before, o, after, back, hsplit, hs.checkOutputs_eq_ok_iff_linked.1 hok, hback,
      hunrecorded, by rw [Nat.zero_add]⟩
  · rintro ⟨before, o, after, back, rfl, hlinked, hback, hunrecorded, rfl⟩
    rw [checkOutputs_append, hs.checkOutputs_eq_ok_iff_linked.2 hlinked, Nat.zero_add, checkOutputs,
      hback]
    exact if_neg (mt hs.isSome_slot?_iff.1 hunrecorded)

/-! ## Transactions -/

/-- The checks pass for new transactions with inputs that can be consumed and outputs whose
    predecessors are recorded. -/
theorem Indexed.accepts_iff (hs : s.Indexed) :
    s.Accepts t ↔ t.id ∉ s.transactions ∧ s.Consumable t.inputs ∧ ∀ o ∈ t.outputs, s.Linked o := by
  constructor
  · intro h
    exact ⟨h.fresh, ⟨h.distinct, fun input hin => hs.exists_get?_iff.1 (h.current input hin)⟩,
      fun o ho back hback => hs.isSome_slot?_iff.1 (h.linked o ho back hback)⟩
  · rintro ⟨hfresh, ⟨hdistinct, hcurrent⟩, hlinked⟩
    exact ⟨hfresh, hdistinct, fun input hin => hs.exists_get?_iff.2 (hcurrent input hin),
      fun o ho back hback => hs.isSome_slot?_iff.2 (hlinked o ho back hback)⟩

/-- The checks fail exactly with the error of the first fault. -/
theorem Indexed.check_eq_error_iff (hs : s.Indexed) : s.check t = .error e ↔ s.Fault t e := by
  rw [check]
  -- The stages of the check in their order; a fault of a later stage presumes that the earlier ones
  -- are passed.
  by_cases hid : t.id ∈ s.transactions
  · rw [if_pos hid]
    constructor
    · intro h
      cases h
      exact .known hid
    · intro h
      cases h with
      | known _ => rfl
      | input hfresh _ _ _ => exact absurd hid hfresh
      | output hfresh _ _ _ _ _ => exact absurd hid hfresh
  · rw [if_neg hid]
    cases hin : s.checkInputs [] t.inputs with
    | error fault =>
      dsimp only
      rw [Except.error.injEq]
      constructor
      · rintro rfl
        obtain ⟨before, input, after, hsplit, hconsumable, hfault⟩ :=
          hs.checkInputs_eq_error_iff.1 hin
        exact .input hid hsplit hconsumable hfault
      · intro h
        cases h with
        | known hrecorded => exact absurd hrecorded hid
        | input _ hinputs hconsumable hfault =>
          have herror := hs.checkInputs_eq_error_iff.2 ⟨_, _, _, hinputs, hconsumable, hfault⟩
          rw [hin] at herror
          exact Except.error.inj herror
        | output _ hconsumable _ _ _ _ =>
          rw [hs.checkInputs_eq_ok_iff_consumable.2 hconsumable] at hin
          cases hin
    | ok _ =>
      have hconsumable := hs.checkInputs_eq_ok_iff_consumable.1 hin
      dsimp only
      rw [hs.checkOutputs_eq_error_iff]
      constructor
      · rintro ⟨before, o, after, back, hsplit, hlinked, hback, hunrecorded, rfl⟩
        exact .output hid hconsumable hsplit hlinked hback hunrecorded
      · intro h
        cases h with
        | known hrecorded => exact absurd hrecorded hid
        | input _ hinputs hconsumable' hfault =>
          rw [hs.checkInputs_eq_error_iff.2 ⟨_, _, _, hinputs, hconsumable', hfault⟩] at hin
          cases hin
        | output _ _ houtputs hlinked hnames hunrecorded =>
          exact ⟨_, _, _, _, houtputs, hlinked, hnames, hunrecorded, rfl⟩

end LedgerQuery.Store
