/-
  LedgerQuery.Proofs.Service.View

  Lists of records viewed as a type. Records are viewed one by one and the first failure is that of
  the list, so a list of views belongs to a list of records place by place (`mapM_eq_ok_iff`). That
  is how the results of a query are viewed, and what its pages are made of (`page_on_of_views`).
-/
import Mathlib.Data.List.Forall2
import LedgerQuery.Service.Sequence

namespace LedgerQuery

/-- Work on a list succeeds if it succeeds at each place. -/
theorem mapM_eq_ok_iff {α β ε : Type} {f : α → Except ε β} {xs : List α} {ys : List β} :
    xs.mapM f = .ok ys ↔ List.Forall₂ (fun x y => f x = .ok y) xs ys := by
  induction xs generalizing ys with
  | nil => cases ys <;> simp [pure, Except.pure]
  | cons x xs ih =>
    rw [List.mapM_cons, List.forall₂_cons_left_iff]
    constructor
    · intro h
      cases hx : f x with
      | error e => simp [hx, bind, Except.bind] at h
      | ok y =>
        cases hxs : xs.mapM f with
        | error e => simp [hx, hxs, bind, Except.bind] at h
        | ok rest =>
          simp only [hx, hxs, bind, Except.bind, pure, Except.pure, Except.ok.injEq] at h
          exact ⟨y, rest, rfl, ih.1 hxs, h.symm⟩
    · rintro ⟨y, rest, hx, hrest, rfl⟩
      simp only [hx, ih.2 hrest, bind, Except.bind, pure, Except.pure]

variable {α : Type} [RecordState α] {r : StoredRecord} {v : Versioned α}

/-! ## Single views -/

/-- A view goes by the reference of its record. -/
theorem reference_of_view (h : r.view α = .ok v) : v.reference = r.reference := by
  unfold StoredRecord.view at h
  dsimp only at h
  split at h
  · split at h
    · cases h; rfl
    · cases h
  · cases h

/-- A view keeps the back reference of its record. -/
theorem back_of_view (h : r.view α = .ok v) : v.back = r.back := by
  unfold StoredRecord.view at h
  dsimp only at h
  split at h
  · split at h
    · cases h; rfl
    · cases h
  · cases h

/-- Only records of the type can be viewed as it. -/
theorem isAssignableTo_of_view (h : r.view α = .ok v) :
    r.isAssignableTo (RecordState.recordType α) = true := by
  unfold StoredRecord.view at h
  dsimp only at h
  split at h
  · assumption
  · cases h

/-! ## Lists of views -/

/-- Views of records, place by place. -/
abbrev Views (records : List StoredRecord) (views : List (Versioned α)) : Prop :=
  List.Forall₂ (fun r v => r.view α = .ok v) records views

variable {records : List StoredRecord} {views : List (Versioned α)}

theorem exists_views (h : ∀ r ∈ records, ∃ v, r.view α = .ok v) :
    ∃ views : List (Versioned α), Views records views := by
  induction records with
  | nil => exact ⟨[], .nil⟩
  | cons r rest ih =>
    obtain ⟨v, hv⟩ := h r List.mem_cons_self
    obtain ⟨views, hviews⟩ := ih fun r hr => h r (List.mem_cons_of_mem _ hr)
    exact ⟨v :: views, .cons hv hviews⟩

theorem Views.references (h : Views records views) :
    views.map Versioned.reference = records.map StoredRecord.reference := by
  induction h with
  | nil => rfl
  | cons hv _ ih => rw [List.map_cons, List.map_cons, reference_of_view hv, ih]

/-- The views of those records that have one. -/
def viewsOf (α : Type) [RecordState α] (records : List StoredRecord) : List (Versioned α) :=
  records.filterMap fun r => (r.view α).toOption

theorem views_viewsOf (h : ∀ r ∈ records, ∃ v : Versioned α, r.view α = .ok v) :
    Views records (viewsOf α records) := by
  induction records with
  | nil => exact .nil
  | cons r rest ih =>
    obtain ⟨v, hv⟩ := h r List.mem_cons_self
    have hrest := ih fun r hr => h r (List.mem_cons_of_mem _ hr)
    have hfirst : viewsOf α (r :: rest) = v :: viewsOf α rest := by
      simp [viewsOf, hv, Except.toOption]
    rw [hfirst]
    exact .cons hv hrest

theorem mem_viewsOf : v ∈ viewsOf α records ↔ ∃ r ∈ records, r.view α = .ok v := by
  have hiff (r : StoredRecord) : (r.view α).toOption = some v ↔ r.view α = .ok v := by
    cases r.view α <;> simp [Except.toOption]
  simp only [viewsOf, List.mem_filterMap, hiff]

/-- A list of views is that of its records. -/
theorem Views.eq_viewsOf (h : Views records views) : views = viewsOf α records := by
  induction h with
  | nil => rfl
  | cons hv _ ih => simp [viewsOf, hv, Except.toOption, ih]

/-- A test of views that comes down to one of records selects the same. -/
theorem Views.filter {ofView : Versioned α → Bool} {ofRecord : StoredRecord → Bool}
    (h : Views records views) (hsame : ∀ r v, r.view α = .ok v → ofView v = ofRecord r) :
    Views (records.filter ofRecord) (views.filter ofView) := by
  induction h with
  | nil => exact .nil
  | @cons r v _ _ hv _ ih =>
    cases htest : ofRecord r with
    | true =>
      rw [List.filter_cons_of_pos htest, List.filter_cons_of_pos ((hsame r v hv).trans htest)]
      exact .cons hv ih
    | false =>
      have hother : ¬ ofView v = true := by rw [hsame r v hv, htest]; exact Bool.false_ne_true
      rw [List.filter_cons_of_neg (by rw [htest]; exact Bool.false_ne_true),
        List.filter_cons_of_neg hother]
      exact ih

/-- A page whose records have views is viewed. -/
theorem ResultSequence.page_on_of_views {σ : Type} {backend : Backend σ} {q : Query} {s s' : σ}
    {page : Page StoredRecord} (h : (backend.query q).on s = (.ok page, s'))
    (hviews : Views page.records views) :
    (ResultSequence.page ⟨backend, q⟩ : Attempt σ QueryError (Page (Versioned α))).on s =
      (.ok ⟨views, page.total⟩, s') := by
  rw [ResultSequence.page, Attempt.on_bind, Attempt.on_mapError, h]
  show (((page.mapM (StoredRecord.view α)).mapError QueryError.record, s') : _ × σ) = _
  rw [Page.mapM, mapM_eq_ok_iff.2 hviews]
  rfl

end LedgerQuery
