/-
  LedgerQuery.Proofs.Query.Register

  Structural setters as registers: each holds the last value that was written to it, and none
  disturbs another. Two changes of the base one after the other are one change, whether or not
  there was a filter at the start (`Criteria.withBase_withBase`), so the laws for criteria are those
  for a single filter. Outside of the structural filters the tree stays as it is, but for a filter
  put in front if there was none (`Criteria.Rewritten`). Main statement: `setters_are_registers`.
-/
import LedgerQuery.Proofs.Query.Criteria
import LedgerQuery.Query.Builder

namespace LedgerQuery

/-! ## Criteria -/

namespace Criteria

variable {c : Criteria} {u v : StructuralFilter → StructuralFilter}

/-- Two changes of the base are one change by both. A filter that the first puts in front is there
    for the second. -/
theorem withBase_withBase : (c.withBase u).withBase v = c.withBase (v ∘ u) := by
  rw [withBase_of_ne_nil (filters_withBase_ne_nil (c := c) (u := u))]
  by_cases hnil : c.filters = []
  · have hplain : c.mapFilters v = c := mapFilters_eq_self fun f hf => by rw [hnil] at hf; cases hf
    rw [withBase_of_nil hnil, withBase_of_nil hnil, mapFilters, mapFilters, hplain]
    rfl
  · rw [withBase_of_ne_nil hnil, withBase_of_ne_nil hnil, mapFilters_mapFilters]

/-- The same tree with the same linear filters and expressions; structural filters are related to
    those in their places. -/
inductive Rewritten (R : StructuralFilter → StructuralFilter → Prop) : Criteria → Criteria → Prop
  | structural {f g : StructuralFilter} (h : R f g) : Rewritten R (.structural f) (.structural g)
  | linear (filter : LinearFilter) : Rewritten R (.linear filter) (.linear filter)
  | expression (e : Expression) : Rewritten R (.expression e) (.expression e)
  | and {left left' right right' : Criteria} (hl : Rewritten R left left')
    (hr : Rewritten R right right') : Rewritten R (.and left right) (.and left' right')
  | or {left left' right right' : Criteria} (hl : Rewritten R left left')
    (hr : Rewritten R right right') : Rewritten R (.or left right) (.or left' right')
  | not {inner inner' : Criteria} (h : Rewritten R inner inner') :
    Rewritten R (.not inner) (.not inner')

theorem rewritten_mapFilters {R : StructuralFilter → StructuralFilter → Prop}
    (h : ∀ f, R f (u f)) (c : Criteria) : Rewritten R c (c.mapFilters u) := by
  induction c with
  | structural f => exact .structural (h f)
  | linear filter => exact .linear filter
  | expression e => exact .expression e
  | and left right ihl ihr => exact .and ihl ihr
  | or left right ihl ihr => exact .or ihl ihr
  | not inner ih => exact .not ih

end Criteria

/-! ## Setters -/

namespace Builder

/-- The fields of a structural filter, each of them written by one kind of setter. -/
inductive Register where
  | status
  | recordTypes
  | references
  | participants
  | relevancy
  deriving DecidableEq

namespace Setter

/-- The field that a setter writes. -/
def register : Setter → Register
  | .status _ => .status
  | .recordTypes _ => .recordTypes
  | .references _ => .references
  | .participants _ => .participants
  | .relevancy _ => .relevancy

/-- Whether a filter has the value that a setter writes. -/
def Carried : Setter → StructuralFilter → Prop
  | .status s, f => f.status = s
  | .recordTypes types, f => f.recordTypes = some (.ofList types)
  | .references refs, f => f.references = some (.ofList refs)
  | .participants parties, f => f.participants = some (.ofList parties)
  | .relevancy r, f => f.relevancy = r

/-- What a setter makes of a filter: it has the new value, and the same as before in the other
    fields. -/
structure Writes (s : Setter) (f g : StructuralFilter) : Prop where
  carried : s.Carried g
  status : s.register ≠ .status → g.status = f.status
  recordTypes : s.register ≠ .recordTypes → g.recordTypes = f.recordTypes
  references : s.register ≠ .references → g.references = f.references
  participants : s.register ≠ .participants → g.participants = f.participants
  relevancy : s.register ≠ .relevancy → g.relevancy = f.relevancy

variable {s t : Setter}

theorem writes_apply (s : Setter) (f : StructuralFilter) : s.Writes f (s.apply f) := by
  have hwritten {k : Register} {P : Prop} : k ≠ k → P := fun h => absurd rfl h
  have hkept {P : Prop} {α : Type} {a : α} : P → a = a := fun _ => rfl
  cases s with
  | status _ => exact ⟨rfl, hwritten, hkept, hkept, hkept, hkept⟩
  | recordTypes _ => exact ⟨rfl, hkept, hwritten, hkept, hkept, hkept⟩
  | references _ => exact ⟨rfl, hkept, hkept, hwritten, hkept, hkept⟩
  | participants _ => exact ⟨rfl, hkept, hkept, hkept, hwritten, hkept⟩
  | relevancy _ => exact ⟨rfl, hkept, hkept, hkept, hkept, hwritten⟩

/-- The later of two values for one field stays. -/
theorem apply_comp_of_eq (h : s.register = t.register) : t.apply ∘ s.apply = t.apply := by
  cases s <;> cases t <;> cases h <;> rfl

/-- Values for different fields do not disturb each other. -/
theorem apply_comp_comm (h : s.register ≠ t.register) : t.apply ∘ s.apply = s.apply ∘ t.apply := by
  cases s <;> cases t <;> try rfl
  -- What is left are two setters of one kind.
  all_goals exact absurd rfl h

end Setter

/-- Structural setters are registers of criteria, whatever their shape: of two values for one field
    the later stays, and values for different fields can be set in either order. -/
theorem setters_are_registers (c : Criteria) (s t : Setter) :
    (s.register = t.register → (c.withBase s.apply).withBase t.apply = c.withBase t.apply) ∧
      (s.register ≠ t.register →
        (c.withBase s.apply).withBase t.apply = (c.withBase t.apply).withBase s.apply) ∧
      ((c.withBase s.apply).filters ≠ [] ∧ ∀ f ∈ (c.withBase s.apply).filters, s.Carried f) ∧
      (c.filters ≠ [] → Criteria.Rewritten s.Writes c (c.withBase s.apply)) ∧
      (c.filters = [] → ∃ f, s.Writes .any f ∧ c.withBase s.apply = .and (.structural f) c) := by
  refine ⟨fun h => ?_, fun h => ?_, ⟨Criteria.filters_withBase_ne_nil, fun f hf => ?_⟩,
    fun h => ?_, fun h => ⟨_, s.writes_apply .any, Criteria.withBase_of_nil h⟩⟩
  · rw [Criteria.withBase_withBase, Setter.apply_comp_of_eq h]
  · rw [Criteria.withBase_withBase, Criteria.withBase_withBase, Setter.apply_comp_comm h]
  · obtain ⟨old, rfl⟩ := Criteria.exists_of_mem_filters_withBase hf
    exact (s.writes_apply old).carried
  · rw [Criteria.withBase_of_ne_nil h]
    exact Criteria.rewritten_mapFilters s.writes_apply c

/-- Criteria without a filter, where the first setter puts one in front, and criteria with a filter
    under a negation, where it does not. -/
theorem setters_are_registers_negated :
    let bare : Criteria := .not (.linear {})
    let held : Criteria := .or (.linear {}) (.not (.structural .any))
    let consumed : Setter := .status .consumed
    (bare.withBase consumed.apply).withBase (Setter.status .all).apply =
        bare.withBase (Setter.status .all).apply ∧
      (bare.withBase consumed.apply).withBase (Setter.relevancy .relevant).apply =
        (bare.withBase (Setter.relevancy .relevant).apply).withBase consumed.apply ∧
      (∃ f, consumed.Writes .any f ∧ bare.withBase consumed.apply = .and (.structural f) bare) ∧
      Criteria.Rewritten consumed.Writes held (held.withBase consumed.apply) := by
  intro bare held consumed
  obtain ⟨hsame, -, -, -, hbare⟩ := setters_are_registers bare consumed (.status .all)
  obtain ⟨-, hother, -⟩ := setters_are_registers bare consumed (.relevancy .relevant)
  obtain ⟨-, -, -, hheld, -⟩ := setters_are_registers held consumed (.status .all)
  exact ⟨hsame rfl, hother (by decide), hbare rfl, hheld (by decide)⟩

end Builder

end LedgerQuery
