/-
  LedgerQuery.Proofs.Query.Builder

  What the steps of a builder mean. Read from left to right, each step changes the test that a
  record has to pass: filters narrow it, a block narrows it, widens it, or takes away what the
  block admits. The builder keeps a copy of its base in every block and rewrites all copies when
  a setter changes one; `Follows` says that all copies stay equal to the current base and that
  the criteria mean the same whatever that base is. Main statement: `admits_performAll`.
-/
import LedgerQuery.Proofs.Query.Criteria
import LedgerQuery.Query.Step

namespace LedgerQuery.Builder

/-! ## How steps end -/

mutual

/-- How a step ends, which does not depend on the builder. -/
def Step.outcome : Step → Except StepError Unit
  | .filter (.error e) => .error (.projection e)
  | .allOf es | .anyOf es => (compiled es).map fun _ => ()
  | .block _ steps => outcomeAll steps
  | .page number size => ((PageSpec.ofParts number size).mapError StepError.page).map fun _ => ()
  | _ => .ok ()

/-- How steps end: with the first that fails. -/
def outcomeAll : List Step → Except StepError Unit
  | [] => .ok ()
  | s :: rest =>
    match s.outcome with
    | .ok () => outcomeAll rest
    | .error e => .error e

end

/-- A step that fails leaves the builder as it was. -/
theorem perform_of_error {b : Builder} {s : Step} {e : StepError}
    (h : (b.perform s).1 = .error e) : (b.perform s).2 = b := by
  cases s with
  | set s => cases h
  | linearIds ids => cases h
  | externalIds names => cases h
  | filter outcome =>
    cases outcome with
    | ok found => cases h
    | error fault => rfl
  | allOf es =>
    rw [perform] at h ⊢
    cases hes : compiled es with
    | ok found => rw [hes] at h; cases h
    | error fault => rfl
  | anyOf es =>
    rw [perform] at h ⊢
    cases hes : compiled es with
    | ok found => rw [hes] at h; cases h
    | error fault => rfl
  | block how steps =>
    -- A block works on a builder of its own, which is thrown away when it fails.
    simp only [perform, block] at h ⊢
    rcases hwork : b.seed.performAll steps with ⟨fault | ⟨⟩, nested⟩
    · rfl
    · rw [hwork] at h
      cases h
  | passOver s => cases h
  | page number size =>
    rw [perform] at h ⊢
    cases hpage : PageSpec.ofParts number size with
    | ok found => rw [hpage] at h; cases h
    | error fault => rfl
  | sort s => cases h

mutual

theorem perform_fst (b : Builder) (s : Step) : (b.perform s).1 = s.outcome := by
  cases s with
  | set s => rfl
  | linearIds ids => rfl
  | externalIds names => rfl
  | filter outcome => cases outcome <;> rfl
  | allOf es =>
    rw [perform, Step.outcome]
    cases compiled es <;> rfl
  | anyOf es =>
    rw [perform, Step.outcome]
    cases compiled es <;> rfl
  | block how steps =>
    rw [perform, Step.outcome, ← performAll_fst b.seed steps, block]
    rcases b.seed.performAll steps with ⟨_ | _, _⟩ <;> rfl
  | passOver s => rfl
  | page number size =>
    rw [perform, Step.outcome]
    cases PageSpec.ofParts number size <;> rfl
  | sort s => rfl

theorem performAll_fst (b : Builder) (steps : List Step) :
    (b.performAll steps).1 = outcomeAll steps := by
  cases steps with
  | nil => rfl
  | cons s rest =>
    rw [performAll, outcomeAll, ← perform_fst b s]
    rcases b.perform s with ⟨_ | _, next⟩
    · rfl
    · exact performAll_fst next rest

end

/-- Steps go on from a step that goes through, and leave the builder alone from one that fails. -/
theorem performAll_cons_snd (b : Builder) (s : Step) (rest : List Step) :
    (b.performAll (s :: rest)).2 =
      match s.outcome with
      | .ok () => ((b.perform s).2.performAll rest).2
      | .error _ => b := by
  rw [performAll, ← perform_fst b s]
  rcases hstep : b.perform s with ⟨fault | ⟨⟩, next⟩
  · have hsame := perform_of_error (congrArg Prod.fst hstep)
    rw [hstep] at hsame
    exact hsame
  · rfl

/-! ## What steps mean -/

/-- Two tests joined in the way that criteria are joined. -/
def Join.apply : Join → Bool → Bool → Bool
  | .and, a, b => a && b
  | .or, a, b => a || b
  | .andNot, a, b => a && !b

mutual

/-- Whether a record passes after a step, given whether it did before. Setters are read apart, in
    `baseAfter`. -/
def Step.meaning (r : StoredRecord) (before : Bool) : Step → Bool
  | .linearIds ids => before && r.linearId.any fun l => ids.any fun i => i.id = l.id
  | .externalIds names => before && (r.linearId.bind LinearId.externalId).any (· ∈ names)
  | .filter (.ok e) => before && e.holds r
  | .allOf es =>
    match compiled es with
    | .ok es => before && (es.filterMap id).all (Expression.holds r)
    | .error _ => before
  | .anyOf es =>
    match compiled es with
    | .ok es =>
      if es.filterMap id = [] then before
      else before && (es.filterMap id).any (Expression.holds r)
    | .error _ => before
  | .block how steps =>
    match outcomeAll steps with
    | .ok () => how.apply before (meaningAll r true steps)
    | .error _ => before
  | .passOver s => s.meaning r before
  | _ => before

/-- Whether a record passes after steps, which end with the first that fails. -/
def meaningAll (r : StoredRecord) (before : Bool) : List Step → Bool
  | [] => before
  | s :: rest =>
    match s.outcome with
    | .ok () => meaningAll r (s.meaning r before) rest
    | .error _ => before

end

/-- A base after the setters among steps, in order; the last to set a field counts. -/
def baseAfter (base : StructuralFilter) : List Step → StructuralFilter
  | [] => base
  | .set s :: rest => baseAfter (s.apply base) rest
  | s :: rest =>
    match s.outcome with
    | .ok () => baseAfter base rest
    | .error _ => base

mutual

/-- Whether a step calls no setter, in blocks neither. -/
def Step.setsNothing : Step → Bool
  | .set _ => false
  | .block _ steps => setNothing steps
  | .passOver s => s.setsNothing
  | _ => true

def setNothing : List Step → Bool
  | [] => true
  | s :: rest => s.setsNothing && setNothing rest

end

/-- Whether a step calls setters outside of blocks only. -/
def Step.setsOutside : Step → Bool
  | .set _ => true
  | s => s.setsNothing

/-! ## Copies of the base -/

/-- Criteria follow a base: it is their leftmost filter, all filters are copies of it, and
    whatever filter stands in their place, a record is admitted if it passes that filter and the
    test. -/
structure Follows (checkStatus : Bool) (r : StoredRecord) (base : StructuralFilter)
    (test : Bool) (c : Criteria) : Prop where
  base_eq : c.base? = some base
  copies : ∀ f ∈ c.filters, f = base
  meaning : ∀ f, (c.mapFilters fun _ => f).eval checkStatus r = (f.admits checkStatus r && test)

variable {checkStatus : Bool} {r : StoredRecord} {base : StructuralFilter} {test : Bool}
  {c : Criteria}

namespace Follows

theorem structural (base : StructuralFilter) :
    Follows checkStatus r base true (.structural base) where
  base_eq := rfl
  copies f hf := List.mem_singleton.1 hf
  meaning f := by rw [Bool.and_true]; rfl

/-- With the base in place of its copies the criteria are as they are. -/
theorem eval_eq (h : Follows checkStatus r base test c) :
    c.eval checkStatus r = (base.admits checkStatus r && test) := by
  rw [← h.meaning base, Criteria.mapFilters_eq_self fun f hf => (h.copies f hf).symm]

/-- A setter reaches all copies. -/
theorem set (h : Follows checkStatus r base test c) (s : Setter) :
    Follows checkStatus r (s.apply base) test (c.withBase s.apply) := by
  rw [Criteria.withBase_of_base? h.base_eq]
  refine ⟨?_, fun f hf => ?_, fun f => ?_⟩
  · rw [Criteria.base?_mapFilters, h.base_eq]
    rfl
  · rw [Criteria.filters_mapFilters] at hf
    obtain ⟨old, hold, rfl⟩ := List.mem_map.1 hf
    rw [h.copies old hold]
  · rw [Criteria.mapFilters_mapFilters]
    exact h.meaning f

/-- Criteria without filters of their own narrow the test. -/
theorem conjoin (h : Follows checkStatus r base test c) {d : Criteria} (hd : d.filters = []) :
    Follows checkStatus r base (test && d.eval checkStatus r) (.and c d) := by
  refine ⟨h.base_eq, fun f hf => ?_, fun f => ?_⟩
  · rw [Criteria.filters, hd, List.append_nil] at hf
    exact h.copies f hf
  · -- What stands in for the copies does not reach into `d`.
    have hsame : (d.mapFilters fun _ => f) = d :=
      Criteria.mapFilters_eq_self fun g hg => by rw [hd] at hg; cases hg
    rw [Criteria.mapFilters, Criteria.eval, h.meaning, hsame, Bool.and_assoc]

/-- A block that follows the same base is joined to what is outside. The filter is tested on
    both sides, under a not as well, and counts once. -/
theorem attach {b : Builder} (h : Follows checkStatus r base test b.criteria) {inner : Bool}
    {d : Criteria} (hd : Follows checkStatus r base inner d) (how : Join) :
    Follows checkStatus r base (how.apply test inner) (b.attach how d).criteria := by
  have hcopies : ∀ f ∈ b.criteria.filters ++ d.filters, f = base := fun f hf =>
    (List.mem_append.1 hf).elim (h.copies f) (hd.copies f)
  -- In each case the filter either fails, and with it both sides, or drops out.
  cases how with
  | and =>
    refine ⟨h.base_eq, hcopies, fun f => ?_⟩
    simp only [Builder.attach, Builder.conjoin, Criteria.mapFilters, Criteria.eval, h.meaning,
      hd.meaning, Join.apply]
    cases f.admits checkStatus r <;> simp
  | or =>
    refine ⟨h.base_eq, hcopies, fun f => ?_⟩
    simp only [Builder.attach, Builder.disjoin, Criteria.mapFilters, Criteria.eval, h.meaning,
      hd.meaning, Join.apply]
    cases f.admits checkStatus r <;> simp
  | andNot =>
    refine ⟨h.base_eq, hcopies, fun f => ?_⟩
    simp only [Builder.attach, Builder.conjoin, Criteria.mapFilters, Criteria.eval, h.meaning,
      hd.meaning, Join.apply]
    cases f.admits checkStatus r <;> simp

/-- What a block starts from follows the base of the builder outside. -/
theorem seed {b : Builder} (h : Follows checkStatus r base test b.criteria) :
    Follows checkStatus r base true b.seed.criteria := by
  rw [Builder.seed, h.base_eq]
  exact structural base

end Follows

/-! ## Filters -/

theorem admits_ofIds (ids : List LinearId) (l : Option LinearId) :
    (LinearFilter.ofIds ids).admits l = l.any fun l => ids.any fun i => i.id = l.id := by
  cases l with
  | none => rfl
  | some l =>
    rw [Bool.eq_iff_iff]
    cases hexternal : l.externalId <;> simp [LinearFilter.admits, LinearFilter.ofIds, hexternal]

theorem admits_ofExternalIds (names : List String) (l : Option LinearId) :
    (LinearFilter.ofExternalIds names).admits l =
      (l.bind LinearId.externalId).any (· ∈ names) := by
  cases l with
  | none => rfl
  | some l =>
    rw [Bool.eq_iff_iff]
    cases hexternal : l.externalId <;>
      simp [LinearFilter.admits, LinearFilter.ofExternalIds, hexternal]

theorem Follows.withExpressions {b : Builder} (h : Follows checkStatus r base test b.criteria)
    (es : List (Option Expression)) :
    Follows checkStatus r base (test && (es.filterMap id).all (Expression.holds r))
      (b.withExpressions es).criteria := by
  unfold Builder.withExpressions
  cases es.filterMap id with
  | nil =>
    rw [List.all_nil, Bool.and_true]
    exact h
  | cons e rest =>
    rw [List.all_cons, ← Expression.holds_foldl_and]
    exact h.conjoin (d := .expression (rest.foldl .and e)) rfl

theorem Follows.withAnyExpressions {b : Builder}
    (h : Follows checkStatus r base test b.criteria) (es : List (Option Expression)) :
    Follows checkStatus r base
      (if es.filterMap id = [] then test
        else test && (es.filterMap id).any (Expression.holds r))
      (b.withAnyExpressions es).criteria := by
  unfold Builder.withAnyExpressions
  cases es.filterMap id with
  | nil => exact h
  | cons e rest =>
    rw [if_neg (List.cons_ne_nil e rest), List.any_cons, ← Expression.holds_foldl_or]
    exact h.conjoin (d := .expression (rest.foldl .or e)) rfl

/-! ## Steps -/

mutual

/-- A step without setters keeps the base and changes the test as it reads. -/
theorem Follows.perform (s : Step) (hs : s.setsNothing = true) {b : Builder} {test : Bool}
    (h : Follows checkStatus r base test b.criteria) :
    Follows checkStatus r base (s.meaning r test) (b.perform s).2.criteria := by
  cases s with
  | set s => cases hs
  | linearIds ids =>
    rw [Step.meaning, ← admits_ofIds]
    exact h.conjoin (d := .linear (.ofIds ids)) rfl
  | externalIds names =>
    rw [Step.meaning, ← admits_ofExternalIds]
    exact h.conjoin (d := .linear (.ofExternalIds names)) rfl
  | filter outcome =>
    cases outcome with
    | ok e => exact h.conjoin (d := .expression e) rfl
    | error fault => exact h
  | allOf es =>
    rw [Builder.perform, Step.meaning]
    cases compiled es with
    | ok found => exact h.withExpressions found
    | error fault => exact h
  | anyOf es =>
    rw [Builder.perform, Step.meaning]
    cases compiled es with
    | ok found => exact h.withAnyExpressions found
    | error fault => exact h
  | block how steps =>
    -- Inside, the base is the same and the test starts over.
    have hinner := Follows.performAll steps hs h.seed
    rw [Builder.perform, Step.meaning, block, ← performAll_fst b.seed steps]
    rcases hwork : b.seed.performAll steps with ⟨fault | ⟨⟩, nested⟩
    · exact h
    · rw [hwork] at hinner
      exact h.attach hinner how
  | passOver s => exact Follows.perform s hs h
  | page number size =>
    rw [Builder.perform]
    cases PageSpec.ofParts number size with
    | ok found => exact h
    | error fault => exact h
  | sort s => exact h

/-- The same of steps in order. -/
theorem Follows.performAll (steps : List Step) (hs : setNothing steps = true) {b : Builder}
    {test : Bool} (h : Follows checkStatus r base test b.criteria) :
    Follows checkStatus r base (meaningAll r test steps) (b.performAll steps).2.criteria := by
  cases steps with
  | nil => exact h
  | cons s rest =>
    obtain ⟨hfirst, hrest⟩ := Bool.and_eq_true_iff.1 hs
    have hnext := Follows.perform s hfirst h
    rw [performAll_cons_snd, meaningAll]
    cases s.outcome with
    | error fault => exact h
    | ok _ => exact Follows.performAll rest hrest hnext

end

/-- Steps with setters outside of blocks: the base goes through the setters, and the test reads
    as before. -/
theorem Follows.performAll_baseAfter {steps : List Step} (hs : ∀ s ∈ steps, s.setsOutside = true)
    {b : Builder} (h : Follows checkStatus r base test b.criteria) :
    Follows checkStatus r (baseAfter base steps) (meaningAll r test steps)
      (b.performAll steps).2.criteria := by
  induction steps generalizing b base test with
  | nil => exact h
  | cons s rest ih =>
    have hrest : ∀ s ∈ rest, s.setsOutside = true := fun s hmem =>
      hs s (List.mem_cons_of_mem _ hmem)
    -- A setter moves the base, any other step keeps it and changes the test.
    by_cases hset : ∃ setter, s = .set setter
    · obtain ⟨setter, rfl⟩ := hset
      exact ih hrest (b := b.set setter) (h.set setter)
    · have hplain : s.setsNothing = true := by
        have hout := hs s List.mem_cons_self
        cases s <;> first | exact hout | exact absurd ⟨_, rfl⟩ hset
      have hbase : baseAfter base (s :: rest) =
          match s.outcome with
          | .ok () => baseAfter base rest
          | .error _ => base := by
        cases s <;> first | rfl | exact absurd ⟨_, rfl⟩ hset
      have hnext := Follows.perform s hplain h
      rw [hbase, performAll_cons_snd, meaningAll]
      cases s.outcome with
      | error fault => exact h
      | ok _ => exact ih hrest hnext

/-- Steps on a builder for a type of records, with setters outside of blocks only. They end as
    they read; the criteria that they leave admit the records that pass the base, as the setters
    have made it, and the test that the other steps describe; and with the status of records left
    aside, only the base's test of the status falls away. A step that fails, a block among them,
    leaves the builder that it was taken on as it was. -/
theorem admits_performAll (t : RecordType) (status : StatusFilter) (steps : List Step)
    (hs : ∀ s ∈ steps, s.setsOutside = true) :
    let work := (forType t status).performAll steps
    let base := baseAfter (.forType t status) steps
    work.1 = outcomeAll steps ∧
      (∀ r, work.2.build.criteria.admits r = (base.admits true r && meaningAll r true steps) ∧
        work.2.build.criteria.admitsIgnoringStatus r =
          (base.admitsIgnoringStatus r && meaningAll r true steps)) ∧
      ∀ (b : Builder) (s : Step) (e : StepError),
        (b.perform s).1 = .error e → (b.perform s).2 = b := by
  intro work base
  have hfollows (checkStatus : Bool) (r : StoredRecord) :
      Follows checkStatus r base (meaningAll r true steps) work.2.criteria :=
    Follows.performAll_baseAfter hs (.structural _)
  refine ⟨performAll_fst _ steps, fun r => ⟨(hfollows true r).eval_eq, ?_⟩, fun b s e h => ?_⟩
  · exact (hfollows false r).eval_eq
  · exact perform_of_error h

/-- Steps that widen, fail in a block, change the base between blocks, and take away. -/
def widenedAndNarrowed : List Step :=
  [.filter (.ok (.isNull (.ofRecord .backReference))),
    .block .or [.filter (.ok (.notNull (.ofRecord .linearId)))],
    .passOver (.block .and
      [.linearIds [], .filter (.error (.nullOperand (.payload "amount") "GreaterThan"))]),
    .set (.status .all),
    .block .andNot [.externalIds ["closed"]],
    .set (.relevancy .relevant)]

/-- A superseded version of an entity that goes by no external name. -/
def superseded : StoredRecord where
  reference := ⟨.ofNumber 2, 0⟩
  back := some ⟨.ofNumber 1, 0⟩
  lineage := [⟨"test.Item"⟩, .any]
  payload := .null
  participants := []
  linearId := some ⟨.timeOrdered 0 0, none⟩
  relevant := true
  status := .consumed
  recordedAt := .epoch
  consumedAt := some .epoch

/-- The version is admitted by the block that widens; under the external name it is kept out by the
    block that takes away, and where it is not relevant by the base. -/
theorem admits_performAll_widenedAndNarrowed :
    let work := (forType ⟨"test.Item"⟩ .unconsumed).performAll widenedAndNarrowed
    let closed := { superseded with linearId := some ⟨.timeOrdered 0 0, some "closed"⟩ }
    (∀ s ∈ widenedAndNarrowed, s.setsOutside = true) ∧ work.1 = .ok () ∧
      work.2.build.criteria.admits superseded = true ∧
      work.2.build.criteria.admits closed = false ∧
      work.2.build.criteria.admits { superseded with relevant := false } = false := by
  intro work closed
  have hs : ∀ s ∈ widenedAndNarrowed, s.setsOutside = true := by
    decide
  obtain ⟨hend, hmeaning, -⟩ := admits_performAll ⟨"test.Item"⟩ .unconsumed widenedAndNarrowed hs
  refine ⟨hs, hend, ?_, ?_, ?_⟩
  · rw [(hmeaning superseded).1]
    decide
  · rw [(hmeaning closed).1]
    decide
  · rw [(hmeaning { superseded with relevant := false }).1]
    decide

end LedgerQuery.Builder
