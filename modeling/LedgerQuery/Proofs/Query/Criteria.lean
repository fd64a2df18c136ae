/-
  LedgerQuery.Proofs.Query.Criteria

  The structural filters inside criteria: where they stand, and what becomes of them when all are
  changed. `mapFilters` acts on the list of filters pointwise and composes, so that criteria whose
  filters all agree are determined by one filter and the shape around it. A change of the base
  reaches all filters, or puts one in front if there is none (`filters_withBase`).
-/
import LedgerQuery.Query.Criteria

namespace LedgerQuery

/-! ## Folded expressions -/

namespace Expression

variable {r : StoredRecord}

theorem holds_foldl_and (e : Expression) (rest : List Expression) :
    (rest.foldl .and e).holds r = (e.holds r && rest.all (holds r)) := by
  induction rest generalizing e with
  | nil => simp
  | cons d rest ih => rw [List.foldl_cons, ih, holds, List.all_cons, Bool.and_assoc]

theorem holds_foldl_or (e : Expression) (rest : List Expression) :
    (rest.foldl .or e).holds r = (e.holds r || rest.any (holds r)) := by
  induction rest generalizing e with
  | nil => simp
  | cons d rest ih => rw [List.foldl_cons, ih, holds, List.any_cons, Bool.or_assoc]

end Expression

namespace Criteria

variable {c : Criteria} {u v : StructuralFilter → StructuralFilter}

/-! ## Changing all filters -/

theorem mapFilters_congr (h : ∀ f ∈ c.filters, u f = v f) : c.mapFilters u = c.mapFilters v := by
  induction c with
  | structural filter => simp only [mapFilters, h filter (List.mem_singleton_self filter)]
  | linear _ => rfl
  | expression _ => rfl
  | and left right ihl ihr =>
    simp only [filters, List.mem_append] at h
    rw [mapFilters, mapFilters, ihl fun f hf => h f (.inl hf), ihr fun f hf => h f (.inr hf)]
  | or left right ihl ihr =>
    simp only [filters, List.mem_append] at h
    rw [mapFilters, mapFilters, ihl fun f hf => h f (.inl hf), ihr fun f hf => h f (.inr hf)]
  | not inner ih => rw [mapFilters, mapFilters, ih h]

@[simp] theorem mapFilters_id : c.mapFilters id = c := by
  induction c with
  | structural _ => rfl
  | linear _ => rfl
  | expression _ => rfl
  | and left right ihl ihr => rw [mapFilters, ihl, ihr]
  | or left right ihl ihr => rw [mapFilters, ihl, ihr]
  | not inner ih => rw [mapFilters, ih]

theorem mapFilters_eq_self (h : ∀ f ∈ c.filters, u f = f) : c.mapFilters u = c := by
  rw [mapFilters_congr (v := id) h, mapFilters_id]

theorem mapFilters_mapFilters : (c.mapFilters u).mapFilters v = c.mapFilters (v ∘ u) := by
  induction c with
  | structural _ => rfl
  | linear _ => rfl
  | expression _ => rfl
  | and left right ihl ihr => simp only [mapFilters, ihl, ihr]
  | or left right ihl ihr => simp only [mapFilters, ihl, ihr]
  | not inner ih => simp only [mapFilters, ih]

theorem filters_mapFilters : (c.mapFilters u).filters = c.filters.map u := by
  induction c with
  | structural _ => rfl
  | linear _ => rfl
  | expression _ => rfl
  | and left right ihl ihr => simp only [mapFilters, filters, ihl, ihr, List.map_append]
  | or left right ihl ihr => simp only [mapFilters, filters, ihl, ihr, List.map_append]
  | not inner ih => simp only [mapFilters, filters, ih]

/-- Changed criteria come out for one record as the criteria themselves do for another, the status
    checked or not, if their filters do and the records agree in all that the other tests look
    at. -/
theorem eval_mapFilters {check check' : Bool} {r r' : StoredRecord}
    (hfilters : ∀ f ∈ c.filters, (u f).admits check r = f.admits check' r')
    (hlinear : r.linearId = r'.linearId) (hexpression : ∀ e : Expression, e.holds r = e.holds r') :
    (c.mapFilters u).eval check r = c.eval check' r' := by
  induction c with
  | structural filter => exact hfilters filter (List.mem_singleton_self filter)
  | linear filter =>
    show eval check r (linear filter) = _
    rw [eval, eval, hlinear]
  | expression e => exact hexpression e
  | and left right ihl ihr =>
    rw [mapFilters, eval, eval, ihl fun f hf => hfilters f (List.mem_append_left _ hf),
      ihr fun f hf => hfilters f (List.mem_append_right _ hf)]
  | or left right ihl ihr =>
    rw [mapFilters, eval, eval, ihl fun f hf => hfilters f (List.mem_append_left _ hf),
      ihr fun f hf => hfilters f (List.mem_append_right _ hf)]
  | not inner ih => rw [mapFilters, eval, eval, ih hfilters]

/-! ## The base -/

theorem base?_mapFilters : (c.mapFilters u).base? = c.base?.map u := by
  induction c with
  | structural _ => rfl
  | linear _ => rfl
  | expression _ => rfl
  | and left right ihl _ => simp only [mapFilters, base?, ihl]
  | or left right ihl _ => simp only [mapFilters, base?, ihl]
  | not inner _ => rfl -- no base under a not, changed or unchanged

theorem mem_filters_of_base? {f : StructuralFilter} (h : c.base? = some f) : f ∈ c.filters := by
  induction c with
  | structural filter =>
    cases h
    exact List.mem_singleton_self f
  | linear _ => cases h
  | expression _ => cases h
  | and left right ihl _ => exact List.mem_append_left _ (ihl h)
  | or left right ihl _ => exact List.mem_append_left _ (ihl h)
  | not inner _ => cases h

theorem withBase_of_nil (h : c.filters = []) : c.withBase u = .and (.structural (u .any)) c := by
  rw [withBase, h]
  rfl

theorem withBase_of_ne_nil (h : c.filters ≠ []) : c.withBase u = c.mapFilters u := by
  rw [withBase, if_neg (mt List.isEmpty_iff.1 h)]

/-- There is a filter in the end, and all are changed. -/
theorem filters_withBase :
    (c.withBase u).filters = if c.filters = [] then [u .any] else c.filters.map u := by
  split
  · rename_i h
    rw [withBase_of_nil h, filters, filters, h, List.append_nil]
  · rename_i h
    rw [withBase_of_ne_nil h, filters_mapFilters]

theorem filters_withBase_ne_nil : (c.withBase u).filters ≠ [] := by
  rw [filters_withBase]
  split
  · exact List.cons_ne_nil _ _
  · exact mt List.map_eq_nil_iff.1 ‹_›

theorem exists_of_mem_filters_withBase {f : StructuralFilter} (h : f ∈ (c.withBase u).filters) :
    ∃ old, f = u old := by
  rw [filters_withBase] at h
  split at h
  · exact ⟨.any, List.mem_singleton.1 h⟩
  · obtain ⟨old, -, rfl⟩ := List.mem_map.1 h
    exact ⟨old, rfl⟩

/-- The base in the end is a changed one, if there was one or no filter at all. -/
theorem exists_base?_withBase (h : c.filters = [] ∨ c.base?.isSome = true) :
    ∃ old, (c.withBase u).base? = some (u old) := by
  by_cases hnil : c.filters = []
  · rw [withBase_of_nil hnil]
    exact ⟨.any, rfl⟩
  · obtain ⟨old, hold⟩ := Option.isSome_iff_exists.1 (h.resolve_left hnil)
    rw [withBase_of_ne_nil hnil, base?_mapFilters, hold]
    exact ⟨old, rfl⟩

/-- Criteria with a base are changed where they stand; nothing is put in front. -/
theorem withBase_of_base? {f : StructuralFilter} (h : c.base? = some f) :
    c.withBase u = c.mapFilters u :=
  withBase_of_ne_nil (List.ne_nil_of_mem (mem_filters_of_base? h))

end Criteria

end LedgerQuery
