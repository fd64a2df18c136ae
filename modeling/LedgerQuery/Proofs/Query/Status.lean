/-
  LedgerQuery.Proofs.Query.Status

  What criteria have to do with the status of records. Only structural filters look at it, so that
  with the status left aside a record is admitted before it is consumed exactly if it is afterwards
  (`admitsIgnoringStatus_withStatus`); and if every filter takes any status, leaving it aside makes
  no difference (`admits_of_status_all`). Builders of subscriptions start from such criteria, and
  lead to such again as long as they set neither the status nor the record types
  (`Builder.scoped_run`).
-/
import LedgerQuery.Proofs.Query.Criteria
import LedgerQuery.Proofs.Query.Step

namespace LedgerQuery

variable {r : StoredRecord} {c : Criteria}

/-! ## Leaving the status aside -/

/-- The same version in another status. -/
def StoredRecord.withStatus (r : StoredRecord) (status : RecordStatus)
    (consumedAt : Option Instant) : StoredRecord :=
  { r with status, consumedAt }

variable {status : RecordStatus} {time : Option Instant}

/-- No place that a comparison reads is the status. -/
@[simp] theorem FieldPath.read_withStatus (p : FieldPath) :
    p.read (r.withStatus status time) = p.read r := by
  cases p with
  | payload path => rfl
  | ofRecord a => cases a <;> rfl

/-- An expression is the same for two records of which all comparisons read the same. -/
theorem Expression.holds_congr {r r' : StoredRecord} (hread : ∀ p : FieldPath, p.read r = p.read r')
    {e : Expression} : e.holds r = e.holds r' := by
  induction e with
  | and left right ihl ihr => rw [holds, holds, ihl, ihr]
  | or left right ihl ihr => rw [holds, holds, ihl, ihr]
  | not inner ih => rw [holds, holds, ih]
  | _ => simp only [holds, hread]

@[simp] theorem Expression.holds_withStatus (e : Expression) :
    e.holds (r.withStatus status time) = e.holds r :=
  holds_congr fun p => p.read_withStatus

namespace Criteria

variable {check check' : Bool} {r' : StoredRecord}

/-- Criteria come out the same for two records, the status checked or not, if their filters do and
    the records agree in all that the other tests look at. -/
theorem eval_congr (hfilters : ∀ f ∈ c.filters, f.admits check r = f.admits check' r')
    (hlinear : r.linearId = r'.linearId) (hexpression : ∀ e : Expression, e.holds r = e.holds r') :
    c.eval check r = c.eval check' r' := by
  have hchanged := eval_mapFilters (u := id) hfilters hlinear hexpression
  rwa [mapFilters_id] at hchanged

/-- Another status makes no difference if the status is left aside. -/
theorem admitsIgnoringStatus_withStatus (c : Criteria) (r : StoredRecord) (status : RecordStatus)
    (time : Option Instant) :
    c.admitsIgnoringStatus (r.withStatus status time) = c.admitsIgnoringStatus r :=
  eval_congr (fun _ _ => rfl) rfl fun e => e.holds_withStatus

/-! ## Filters that take any status -/

/-- If every filter takes any status, criteria are the same with the status left aside. -/
theorem admits_of_status_all (h : ∀ f ∈ c.filters, f.status = .all) :
    c.admits r = c.admitsIgnoringStatus r := by
  refine eval_congr (fun f hf => ?_) rfl fun _ => rfl
  rw [StructuralFilter.admits, StructuralFilter.admits, h f hf]
  rfl

theorem status_of_status_all (h : ∀ f ∈ c.filters, f.status = .all) : c.status = .all := by
  unfold status
  cases hbase : c.base? with
  | none => rfl
  | some f => exact h f (mem_filters_of_base? hbase)

/-! ## Criteria for one type -/

/-- Criteria that admit records of one type only, as far as their filters tell: a conjunction
    keeps to the type if its left side does, a disjunction if both sides do. -/
inductive KeepsTo (t : RecordType) : Criteria → Prop where
  | structural {f : StructuralFilter} (types : f.recordTypes = some (.singleton t)) :
    KeepsTo t (.structural f)
  | and {left : Criteria} (kept : KeepsTo t left) (right : Criteria) : KeepsTo t (.and left right)
  | or {left right : Criteria} (keptLeft : KeepsTo t left) (keptRight : KeepsTo t right) :
    KeepsTo t (.or left right)

namespace KeepsTo

variable {t : RecordType} {u : StructuralFilter → StructuralFilter}

theorem isAssignableTo (h : KeepsTo t c) (hr : c.admitsIgnoringStatus r = true) :
    r.isAssignableTo t = true := by
  unfold admitsIgnoringStatus at hr
  induction h with
  | structural htypes =>
    simp only [eval, StructuralFilter.admits, StructuralFilter.admitsIgnoringStatus, htypes,
      Bool.and_eq_true] at hr
    obtain ⟨other, hmem, hassign⟩ := List.any_eq_true.1 (by simpa using hr.2.1.1.1)
    rwa [List.mem_singleton.1 (hmem : other ∈ [t])] at hassign
  | and _ right ih => exact ih (Bool.and_eq_true_iff.1 hr).1
  | or _ _ ihl ihr =>
    rcases Bool.or_eq_true_iff.1 hr with hleft | hright
    · exact ihl hleft
    · exact ihr hright

theorem mapFilters (hu : ∀ f, (u f).recordTypes = f.recordTypes) (h : KeepsTo t c) :
    KeepsTo t (c.mapFilters u) := by
  induction h with
  | structural htypes => exact .structural ((hu _).trans htypes)
  | and _ right ih => exact .and ih _
  | or _ _ ihl ihr => exact .or ihl ihr

theorem exists_base? (h : KeepsTo t c) : ∃ f, c.base? = some f := by
  induction h with
  | @structural f _ => exact ⟨f, rfl⟩
  | and _ _ ih => exact ih
  | or _ _ ih _ => exact ih

end KeepsTo

end Criteria

/-! ## Builders of subscriptions -/

namespace Builder

/-- Whether a setter leaves the status and the record types as they are. -/
def Setter.keepsScope : Setter → Bool
  | .status _ | .recordTypes _ => false
  | _ => true

mutual

/-- Whether a step sets neither the status nor the record types, in blocks neither. -/
def Step.keepsScope : Step → Bool
  | .set s => s.keepsScope
  | .block _ steps => keepScope steps
  | .passOver s => s.keepsScope
  | _ => true

def keepScope : List Step → Bool
  | [] => true
  | s :: rest => s.keepsScope && keepScope rest

end

theorem keepsScope_of_mem {steps : List Step} (h : keepScope steps = true) {s : Step}
    (hs : s ∈ steps) : s.keepsScope = true := by
  induction steps with
  | nil => cases hs
  | cons first rest ih =>
    obtain ⟨hfirst, hrest⟩ := Bool.and_eq_true_iff.1 h
    rcases List.mem_cons.1 hs with rfl | hs
    · exact hfirst
    · exact ih hrest hs

/-- Criteria for one type and any status: all filters are, and so is what they are joined to. -/
structure Scoped (t : RecordType) (c : Criteria) : Prop where
  filters : ∀ f ∈ c.filters, f.status = .all ∧ f.recordTypes = some (.singleton t)
  keepsTo : Criteria.KeepsTo t c

namespace Scoped

variable {t : RecordType} {b : Builder} {d : Criteria}

theorem structural {f : StructuralFilter}
    (h : f.status = .all ∧ f.recordTypes = some (.singleton t)) : Scoped t (.structural f) where
  filters _ hg := List.mem_singleton.1 hg ▸ h
  keepsTo := .structural h.2

theorem conjoin (h : Scoped t c)
    (hd : ∀ f ∈ d.filters, f.status = .all ∧ f.recordTypes = some (.singleton t)) :
    Scoped t (.and c d) where
  filters f hf := (List.mem_append.1 hf).elim (h.filters f) (hd f)
  keepsTo := h.keepsTo.and d

/-- Criteria without filters can be joined to any others. -/
theorem conjoin_plain (h : Scoped t c) (hd : d.filters = []) : Scoped t (.and c d) :=
  h.conjoin fun f hf => by rw [hd] at hf; cases hf

theorem attach (h : Scoped t b.criteria) (hd : Scoped t d) (how : Join) :
    Scoped t (b.attach how d).criteria := by
  cases how with
  | and => exact h.conjoin hd.filters
  | or => exact ⟨fun f hf => (List.mem_append.1 hf).elim (h.filters f) (hd.filters f),
      h.keepsTo.or hd.keepsTo⟩
  | andNot => exact h.conjoin (d := .not d) hd.filters

theorem seed (h : Scoped t b.criteria) : Scoped t b.seed.criteria := by
  obtain ⟨f, hbase⟩ := h.keepsTo.exists_base?
  rw [Builder.seed, hbase]
  exact structural (h.filters f (Criteria.mem_filters_of_base? hbase))

theorem set (h : Scoped t c) {s : Setter} (hs : s.keepsScope = true) :
    Scoped t (c.withBase s.apply) := by
  have hsame (f : StructuralFilter) :
      (s.apply f).status = f.status ∧ (s.apply f).recordTypes = f.recordTypes := by
    cases s <;> first | exact ⟨rfl, rfl⟩ | cases hs
  obtain ⟨base, hbase⟩ := h.keepsTo.exists_base?
  rw [Criteria.withBase_of_base? hbase]
  refine ⟨fun f hf => ?_, h.keepsTo.mapFilters fun f => (hsame f).2⟩
  rw [Criteria.filters_mapFilters] at hf
  obtain ⟨old, hold, rfl⟩ := List.mem_map.1 hf
  rw [(hsame old).1, (hsame old).2]
  exact h.filters old hold

/-- Every step that leaves the scope as it is keeps to it. -/
theorem kept (t : RecordType) : Kept (fun s => s.keepsScope = true) (Scoped t) where
  set hs h := h.set hs
  conjoin hd h := h.conjoin_plain hd
  seed h := h.seed
  attach how h hd := h.attach hd how
  inBlock hs _ hmem := keepsScope_of_mem hs hmem
  passedOver hs := hs

end Scoped

/-- What a builder for a type and any status leads to, unless a step sets one of the two. -/
theorem scoped_run {t : RecordType} {steps : List Step} {b : Builder}
    (hs : keepScope steps = true) (h : (forType t .all).run steps = .ok b) :
    Scoped t b.criteria := by
  have hstart : Scoped t (forType t .all).criteria := Scoped.structural ⟨rfl, rfl⟩
  have hend := (Scoped.kept t).performAll steps (fun _ => keepsScope_of_mem hs) hstart
  unfold run at h
  rcases hwork : (forType t .all).performAll steps with ⟨fault | ⟨⟩, last⟩
  · rw [hwork] at h
    cases h
  · rw [hwork] at h hend
    cases h
    exact hend

end Builder

end LedgerQuery
