/-
  LedgerQuery.Proofs.Query.Setter

  What setting the status does to criteria of any shape. Every structural filter gets the status,
  one is put in front if there is none, and no filter passes a record of another status any more. So
  such a record satisfies the criteria only by evading all filters (`evadedBy`), through another
  branch of a disjunction or under a negation, and no step of a builder opens a way to do so that
  the criteria did not have from the start (`evasion_kept`). Main statement:
  `status_binds_filters`.
-/
import LedgerQuery.Proofs.Query.Builder
import LedgerQuery.Proofs.Query.Step

namespace LedgerQuery

/-- The filter that no record passes. -/
def StructuralFilter.nothing : StructuralFilter := { recordTypes := some ∅ }

@[simp] theorem StructuralFilter.admits_nothing (check : Bool) (r : StoredRecord) :
    nothing.admits check r = false := by
  have hnone : (∅ : SortedSet RecordType).toList = [] := rfl
  simp [admits, admitsIgnoringStatus, nothing, hnone]

namespace Criteria

variable {c : Criteria} {u : StructuralFilter → StructuralFilter} {r : StoredRecord}

/-! ## Evading the filters -/

/-- Whether a record satisfies criteria without passing any of the structural filters in them. -/
def evadedBy (c : Criteria) (r : StoredRecord) : Bool := (c.mapFilters fun _ => .nothing).admits r

/-- A record that passes no filter satisfies criteria only by evading them. -/
theorem admits_eq_evadedBy (h : ∀ f ∈ c.filters, f.admits true r = false) :
    c.admits r = c.evadedBy r := by
  refine (eval_mapFilters (fun f hf => ?_) rfl fun _ => rfl).symm
  rw [StructuralFilter.admits_nothing, h f hf]

@[simp] theorem evadedBy_mapFilters : (c.mapFilters u).evadedBy r = c.evadedBy r := by
  rw [evadedBy, mapFilters_mapFilters]
  rfl

@[simp] theorem evadedBy_structural (f : StructuralFilter) : (structural f).evadedBy r = false :=
  StructuralFilter.admits_nothing true r

@[simp] theorem evadedBy_and (c d : Criteria) :
    (and c d).evadedBy r = (c.evadedBy r && d.evadedBy r) := rfl

@[simp] theorem evadedBy_or (c d : Criteria) :
    (or c d).evadedBy r = (c.evadedBy r || d.evadedBy r) := rfl

/-- A filter that is put in front leaves no way to evade it. -/
theorem evadedBy_withBase : (c.withBase u).evadedBy r = (!c.filters.isEmpty && c.evadedBy r) := by
  by_cases hnil : c.filters = []
  · rw [withBase_of_nil hnil, hnil]
    simp
  · rw [withBase_of_ne_nil hnil, evadedBy_mapFilters, List.isEmpty_eq_false_iff.2 hnil]
    rfl

end Criteria

namespace Builder

/-! ## Steps -/

/-- No step lets a record evade the filters that could not before: what a builder joins to its
    criteria starts from a filter of its own. -/
theorem evasion_kept (r : StoredRecord) : Kept (fun _ => True) fun c => c.evadedBy r = false where
  set _ h := by rw [Criteria.evadedBy_withBase, h, Bool.and_false]
  conjoin _ h := by rw [Criteria.evadedBy_and, h, Bool.false_and]
  seed _ := Criteria.evadedBy_structural _
  attach how h hd := by
    cases how with
    | and => simp [attach, conjoin, h]
    | or => simp [attach, disjoin, h, hd]
    | andNot => simp [attach, conjoin, h]
  inBlock _ _ _ := trivial
  passedOver _ := trivial

/-- Criteria that have a base keep one: they grow to the right of it. -/
theorem base_kept : Kept (fun _ => True) fun c => c.base?.isSome = true where
  set _ h := by
    obtain ⟨old, hold⟩ := Criteria.exists_base?_withBase (.inr h)
    rw [hold]
    rfl
  conjoin _ h := h
  seed _ := rfl
  attach how h _ := by cases how <;> exact h
  inBlock _ _ _ := trivial
  passedOver _ := trivial

/-- Setting the status, after steps on criteria of any shape. There is a structural filter then, and
    all have the status. It is the status of the criteria if these had a base before, which they do
    ever after if they had one at the start, or no filter. A record of another status satisfies them
    exactly by evading the filters that were there; and the ways to do so are among those that the
    criteria had at the start. -/
theorem status_binds_filters (c : Criteria) (steps : List Step) (s : StatusFilter) :
    let before := (({ criteria := c } : Builder).performAll steps).2
    let built := (before.set (.status s)).build.criteria
    (built.filters ≠ [] ∧ ∀ f ∈ built.filters, f.status = s) ∧
      (c.base?.isSome = true → before.criteria.base?.isSome = true) ∧
      (before.criteria.filters = [] ∨ before.criteria.base?.isSome = true → built.status = s) ∧
      ∀ r, (s.admits r.status = false →
          (built.admits r = true ↔
            before.criteria.filters ≠ [] ∧ before.criteria.evadedBy r = true)) ∧
        (built.admits r = true → s.admits r.status = true ∨ c.evadedBy r = true) := by
  intro before built
  have hfilters : ∀ f ∈ built.filters, f.status = s := by
    intro f hf
    obtain ⟨old, rfl⟩ := Criteria.exists_of_mem_filters_withBase hf
    rfl
  have hevades (r : StoredRecord) (hr : s.admits r.status = false) : built.admits r = true ↔
      before.criteria.filters ≠ [] ∧ before.criteria.evadedBy r = true := by
    -- All filters name the new status, so the record passes none of them.
    have hfail : ∀ f ∈ built.filters, f.admits true r = false := by
      intro f hf
      rw [StructuralFilter.admits, hfilters f hf, hr]
      rfl
    rw [Criteria.admits_eq_evadedBy hfail]
    show (before.criteria.withBase _).evadedBy r = true ↔ _
    rw [Criteria.evadedBy_withBase, Bool.and_eq_true_iff, Bool.not_eq_true',
      List.isEmpty_eq_false_iff]
  refine ⟨⟨Criteria.filters_withBase_ne_nil, hfilters⟩,
    base_kept.performAll steps (fun _ _ => trivial) (b := { criteria := c }), fun hbase => ?_,
    fun r => ⟨hevades r, fun h => ?_⟩⟩
  · obtain ⟨old, hold⟩ := Criteria.exists_base?_withBase (u := (Setter.status s).apply) hbase
    show ((before.criteria.withBase _).base?.map StructuralFilter.status).getD .all = s
    rw [hold]
    rfl
  · cases hstatus : s.admits r.status with
    | true => exact .inl rfl
    | false =>
      obtain ⟨-, hevaded⟩ := (hevades r hstatus).1 h
      cases hstart : c.evadedBy r with
      | true => exact .inr rfl
      | false =>
        -- What it could not evade at the start, it cannot evade after the steps.
        have hkept := (evasion_kept r).performAll steps (fun _ _ => trivial)
          (b := { criteria := c }) hstart
        rw [hkept] at hevaded
        cases hevaded

/-- Criteria with a branch that no filter guards. -/
def unguarded : Criteria :=
  .or (.structural .any) (.expression (.notNull (.ofRecord .backReference)))

/-- A record of another status gets through a branch without filters, and through a negation, which
    turns the filter in it round. -/
theorem status_leaves_ways_open :
    let built (c : Criteria) :=
      (({ criteria := c } : Builder).set (.status .unconsumed)).build.criteria
    let negated : Criteria := .not (.structural .any)
    StatusFilter.admits .unconsumed superseded.status = false ∧
      (built unguarded).status = .unconsumed ∧ (built unguarded).admits superseded = true ∧
      (built negated).status ≠ .unconsumed ∧ (built negated).admits superseded = true := by
  decide

/-- The status is set after a block has been taken away from criteria with such a branch. -/
theorem status_binds_filters_unguarded :
    let steps : List Step := [.block .andNot [.externalIds ["closed"]]]
    let before := (({ criteria := unguarded } : Builder).performAll steps).2
    let built := (before.set (.status .unconsumed)).build.criteria
    built.status = .unconsumed ∧ built.admits superseded = true ∧
      unguarded.evadedBy superseded = true := by
  intro steps before built
  obtain ⟨-, hbase, hstatus, hrecords⟩ := status_binds_filters unguarded steps .unconsumed
  obtain ⟨hadmits, hways⟩ := hrecords superseded
  have hother : StatusFilter.admits .unconsumed superseded.status = false := rfl
  have hbuilt : built.admits superseded = true := (hadmits hother).2 (by decide)
  refine ⟨hstatus (.inr (hbase rfl)), hbuilt, (hways hbuilt).resolve_left ?_⟩
  rw [hother]
  exact Bool.false_ne_true

end Builder

end LedgerQuery
