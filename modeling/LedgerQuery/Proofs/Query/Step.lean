/-
  LedgerQuery.Proofs.Query.Step

  What the steps of a builder keep. A property of criteria is kept by all steps, blocks inside of
  blocks among them, if it is kept by the few ways in which a builder changes its criteria (`Kept`).
-/
import LedgerQuery.Query.Step

namespace LedgerQuery.Builder

/-- A property of criteria that outlasts each way of changing them that allowed steps have. -/
structure Kept (allowed : Step → Prop) (P : Criteria → Prop) : Prop where
  set : ∀ {c : Criteria} {s : Setter}, allowed (.set s) → P c → P (c.withBase s.apply)
  conjoin : ∀ {c d : Criteria}, d.filters = [] → P c → P (.and c d)
  seed : ∀ {b : Builder}, P b.criteria → P b.seed.criteria
  attach : ∀ {b : Builder} {d : Criteria} (how : Join), P b.criteria → P d →
    P (b.attach how d).criteria
  inBlock : ∀ {how : Join} {steps : List Step}, allowed (.block how steps) → ∀ s ∈ steps, allowed s
  passedOver : ∀ {s : Step}, allowed (.passOver s) → allowed s

namespace Kept

variable {allowed : Step → Prop} {P : Criteria → Prop} {b : Builder}

theorem withExpressions (h : Kept allowed P) (hb : P b.criteria) (es : List (Option Expression)) :
    P (b.withExpressions es).criteria := by
  unfold Builder.withExpressions
  split
  · exact h.conjoin rfl hb
  · exact hb

theorem withAnyExpressions (h : Kept allowed P) (hb : P b.criteria)
    (es : List (Option Expression)) : P (b.withAnyExpressions es).criteria := by
  unfold Builder.withAnyExpressions
  split
  · exact h.conjoin rfl hb
  · exact hb

mutual

theorem perform (h : Kept allowed P) (s : Step) (hs : allowed s) {b : Builder}
    (hb : P b.criteria) : P (b.perform s).2.criteria := by
  cases s with
  | set s => exact h.set hs hb
  | linearIds ids => exact h.conjoin rfl hb
  | externalIds names => exact h.conjoin rfl hb
  | filter outcome =>
    cases outcome with
    | ok e => exact h.conjoin rfl hb
    | error fault => exact hb
  | allOf es =>
    rw [Builder.perform]
    cases compiled es with
    | ok found => exact h.withExpressions hb found
    | error fault => exact hb
  | anyOf es =>
    rw [Builder.perform]
    cases compiled es with
    | ok found => exact h.withAnyExpressions hb found
    | error fault => exact hb
  | block how steps =>
    -- A block starts with criteria of its own, and is attached only if none of its steps failed.
    have hinner := performAll h steps (h.inBlock hs) (h.seed hb)
    rw [Builder.perform, block]
    rcases hwork : b.seed.performAll steps with ⟨fault | ⟨⟩, nested⟩
    · exact hb
    · rw [hwork] at hinner
      exact h.attach how hb hinner
  | passOver s => exact perform h s (h.passedOver hs) hb
  | page number size =>
    rw [Builder.perform]
    cases PageSpec.ofParts number size with
    | ok found => exact hb
    | error fault => exact hb
  | sort s => exact hb

/-- What each step keeps, steps in order keep, up to the one that fails. -/
theorem performAll (h : Kept allowed P) (steps : List Step) (hs : ∀ s ∈ steps, allowed s)
    {b : Builder} (hb : P b.criteria) : P (b.performAll steps).2.criteria := by
  cases steps with
  | nil => exact hb
  | cons s rest =>
    obtain ⟨hfirst, hrest⟩ := List.forall_mem_cons.1 hs
    have hnext := perform h s hfirst hb
    rw [Builder.performAll]
    rcases hstep : b.perform s with ⟨fault | ⟨⟩, next⟩
    · rw [hstep] at hnext
      exact hnext
    · rw [hstep] at hnext
      exact performAll h rest hrest hnext

end

end Kept

end LedgerQuery.Builder
