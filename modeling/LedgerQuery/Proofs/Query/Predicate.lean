/-
  LedgerQuery.Proofs.Query.Predicate

  What comparisons mean. A comparison is read twice: `Rejects` says which fault it has, if any,
  and `Meets` says which values of the field it asks for, a missing value standing for null. The
  compiler spreads the handling of null over the test for null, the disjunction and the leaves
  that fail on null; main statement `compile_meaning`: it refuses exactly the faulty comparisons,
  and what it compiles holds of a record exactly when the field's value meets the comparison.
-/
import LedgerQuery.Query.Predicate

namespace LedgerQuery

/-! ## Values that are asked for -/

/-- Both values are null, or both are there and equal. -/
def Scalar.Matches (ignoreCase : Bool) (v w : Option Scalar) : Prop :=
  (v = none ∧ w = none) ∨ ∃ a b, v = some a ∧ w = some b ∧ Scalar.equals ignoreCase a b = true

/-- The outcomes of comparing a field with the operand that an ordering asks for. -/
def OrderOp.Allows : OrderOp → Ordering → Prop
  | .greaterThan, o => o = .gt
  | .greaterOrEqual, o => o = .gt ∨ o = .eq
  | .lessThan, o => o = .lt
  | .lessOrEqual, o => o = .lt ∨ o = .eq

theorem OrderOp.holds_iff {op : OrderOp} {o : Ordering} : op.holds o = true ↔ op.Allows o := by
  cases op <;> cases o <;> simp [OrderOp.holds, OrderOp.Allows]

/-- Both values are there, comparable, and in the order that is asked for. -/
def Scalar.Ordered (op : OrderOp) (v w : Option Scalar) : Prop :=
  ∃ a b o, v = some a ∧ w = some b ∧ Scalar.compare? false a b = some o ∧ op.Allows o

namespace Field

variable {α : Type}

/-- Which values of the field a comparison asks for. -/
def Meets (f : Field α) (v : Option Scalar) : Predicate α → Prop
  | .equalTo x ignoreCase => Scalar.Matches ignoreCase v (f.operand x)
  | .notEqualTo x ignoreCase => ¬ Scalar.Matches ignoreCase v (f.operand x)
  | .ordered op x => Scalar.Ordered op v (f.operand x)
  | .between low high =>
    Scalar.Ordered .greaterOrEqual v (f.operand low) ∧
      Scalar.Ordered .lessOrEqual v (f.operand high)
  | .within xs ignoreCase => ∃ x ∈ xs, Scalar.Matches ignoreCase v (f.operand (some x))
  | .notWithin xs ignoreCase =>
    v ≠ none ∧ ¬ ∃ x ∈ xs, Scalar.Matches ignoreCase v (f.operand (some x))
  | .like x ignoreCase =>
    ∃ text pattern, v = some (.text text) ∧ f.project x = some (.text pattern) ∧
      Like.holds ignoreCase text pattern = true
  | .notLike x ignoreCase =>
    ∃ text pattern, v = some (.text text) ∧ f.project x = some (.text pattern) ∧
      Like.holds ignoreCase text pattern = false

/-! ## Faults -/

/-- The place of the first operand that projects to null. -/
def FirstNull (f : Field α) (xs : List α) (index : Nat) : Prop :=
  (xs.map f.project)[index]? = some none ∧
    ∀ earlier, earlier < index → (xs.map f.project)[earlier]? ≠ some none

/-- What is wrong with a pattern: it projects to null, or to something that is no text. -/
def RejectsPattern (f : Field α) (operator : String) (x : α) (e : ProjectionError) : Prop :=
  (f.project x = none ∧ e = .nullElement f.path operator 0) ∨
    ∃ v, f.project x = some v ∧ v.text? = none ∧ e = .nonTextPattern f.path operator

/-- Which fault a comparison of the field has. -/
def Rejects (f : Field α) (e : ProjectionError) : Predicate α → Prop
  | .equalTo .. | .notEqualTo .. => False
  | .ordered op x => f.operand x = none ∧ e = .nullOperand f.path op.name
  | .between low high =>
    (f.operand low = none ∨ f.operand high = none) ∧ e = .nullOperand f.path "Between"
  | .within xs _ => ∃ index, f.FirstNull xs index ∧ e = .nullElement f.path "Within" index
  | .notWithin xs _ => ∃ index, f.FirstNull xs index ∧ e = .nullElement f.path "NotWithin" index
  | .like x _ => f.RejectsPattern "Like" x e
  | .notLike x _ => f.RejectsPattern "NotLike" x e

/-! ## Operands -/

variable {f : Field α} {operator : String} {e : ProjectionError}

theorem requiredOperand_eq_error_iff {x : Option α} :
    f.requiredOperand operator x = .error e ↔
      f.operand x = none ∧ e = .nullOperand f.path operator := by
  unfold requiredOperand
  cases f.operand x with
  | none =>
    simp only [Except.error.injEq, true_and]
    exact eq_comm
  | some v => simp

theorem requiredOperand_eq_ok_iff {x : Option α} {v : Scalar} :
    f.requiredOperand operator x = .ok v ↔ f.operand x = some v := by
  unfold requiredOperand
  cases f.operand x <;> simp

theorem firstNull_cons_of_none {x : α} {xs : List α} (hx : f.project x = none) {index : Nat} :
    f.FirstNull (x :: xs) index ↔ index = 0 := by
  constructor
  · rintro ⟨-, hbefore⟩
    rcases Nat.eq_zero_or_pos index with hzero | hpos
    · exact hzero
    · exact absurd (by simp [hx]) (hbefore 0 hpos)
  · rintro rfl
    exact ⟨by simp [hx], fun earlier h => absurd h (Nat.not_lt_zero earlier)⟩

theorem firstNull_cons_of_some {x : α} {xs : List α} {v : Scalar} (hx : f.project x = some v)
    {index : Nat} :
    f.FirstNull (x :: xs) index ↔ ∃ rest, index = rest + 1 ∧ f.FirstNull xs rest := by
  constructor
  · rintro ⟨hnull, hbefore⟩
    cases index with
    | zero => simp [hx] at hnull
    | succ rest =>
      refine ⟨rest, rfl, by simpa using hnull, fun earlier h => ?_⟩
      simpa using hbefore (earlier + 1) (Nat.succ_lt_succ h)
  · rintro ⟨rest, rfl, hnull, hbefore⟩
    refine ⟨by simpa using hnull, fun earlier h => ?_⟩
    cases earlier with
    | zero => simp [hx]
    | succ earlier => simpa using hbefore earlier (Nat.lt_of_succ_lt_succ h)

/-- Operands are refused for the first that projects to null. -/
theorem elements_eq_error_iff {start : Nat} {xs : List α} :
    f.elements operator start xs = .error e ↔
      ∃ index, f.FirstNull xs index ∧ e = .nullElement f.path operator (start + index) := by
  induction xs generalizing start with
  | nil => simp [elements, FirstNull]
  | cons x xs ih =>
    rw [elements]
    cases hx : f.project x with
    | none =>
      simp only [firstNull_cons_of_none hx, exists_eq_left, Nat.add_zero, Except.error.injEq]
      exact eq_comm
    | some v =>
      -- The tail counts from the next index, so what it finds there is one further in the whole.
      have htail : (f.elements operator (start + 1) xs).map (v :: ·) = .error e ↔
          f.elements operator (start + 1) xs = .error e := by
        cases f.elements operator (start + 1) xs <;> simp [Except.map]
      simp only [htail, ih, firstNull_cons_of_some hx]
      constructor
      · rintro ⟨rest, hfirst, rfl⟩
        exact ⟨rest + 1, ⟨rest, rfl, hfirst⟩, by rw [Nat.add_assoc, Nat.add_comm 1 rest]⟩
      · rintro ⟨_, ⟨rest, rfl, hfirst⟩, rfl⟩
        exact ⟨rest, hfirst, by rw [Nat.add_assoc, Nat.add_comm 1 rest]⟩

/-- Operands are accepted as the scalars that they project to. -/
theorem elements_eq_ok {start : Nat} {xs : List α} {vs : List Scalar}
    (h : f.elements operator start xs = .ok vs) : xs.map f.project = vs.map some := by
  induction xs generalizing start vs with
  | nil =>
    cases h
    rfl
  | cons x xs ih =>
    rw [elements] at h
    cases hx : f.project x with
    | none => rw [hx] at h; cases h
    | some v =>
      rw [hx] at h
      cases hrest : f.elements operator (start + 1) xs with
      | error fault => simp [hrest, Except.map] at h
      | ok rest =>
        simp only [hrest, Except.map, Except.ok.injEq] at h
        subst h
        rw [List.map_cons, List.map_cons, hx, ih hrest]

theorem pattern_eq_error_iff {x : α} :
    f.pattern operator x = .error e ↔ f.RejectsPattern operator x e := by
  unfold Field.pattern RejectsPattern
  cases f.project x with
  | none =>
    simp only [Except.error.injEq, true_and, reduceCtorEq, false_and, exists_false, or_false]
    exact eq_comm
  | some v =>
    cases v <;> simp [Scalar.text?] <;> exact eq_comm

theorem pattern_eq_ok_iff {x : α} {s : String} :
    f.pattern operator x = .ok s ↔ f.project x = some (.text s) := by
  unfold Field.pattern
  cases f.project x with
  | none => simp
  | some v => cases v <;> simp

/-! ## Compiled comparisons -/

variable {p : Predicate α} {r : StoredRecord}

theorem map_eq_error_iff {β γ : Type} {x : Except ProjectionError β} {g : β → γ} :
    x.map g = .error e ↔ x = .error e := by
  cases x <;> simp [Except.map]

theorem map_eq_ok_iff {β γ : Type} {x : Except ProjectionError β} {g : β → γ} {y : γ} :
    x.map g = .ok y ↔ ∃ b, x = .ok b ∧ g b = y := by
  cases x <;> simp [Except.map]

/-- The compiler refuses the faulty comparisons, each for its fault. -/
theorem compile_eq_error_iff : f.compile p = .error e ↔ f.Rejects e p := by
  cases p with
  | equalTo x ignoreCase =>
    cases hx : f.operand x <;> simp [compile, Rejects, hx]
  | notEqualTo x ignoreCase =>
    cases hx : f.operand x <;> simp [compile, Rejects, hx]
  | ordered op x =>
    rw [compile, map_eq_error_iff]
    exact requiredOperand_eq_error_iff
  | between low high =>
    -- The upper bound is looked at only if the lower one is there; their faults read the same.
    have hor : f.compile (.between low high) = .error e ↔
        f.requiredOperand "Between" low = .error e ∨
          ∃ v, f.requiredOperand "Between" low = .ok v ∧
            f.requiredOperand "Between" high = .error e := by
      cases hlow : f.requiredOperand "Between" low <;>
        cases hhigh : f.requiredOperand "Between" high <;>
        simp [compile, Predicate.operator, hlow, hhigh, bind, Except.bind, pure, Except.pure]
    rw [hor]
    simp only [requiredOperand_eq_error_iff, requiredOperand_eq_ok_iff, Rejects]
    cases f.operand low with
    | none => simp
    | some v => simp
  | within xs ignoreCase =>
    rw [compile, map_eq_error_iff, elements_eq_error_iff]
    simp only [Nat.zero_add]
    exact Iff.rfl
  | notWithin xs ignoreCase =>
    rw [compile, map_eq_error_iff, elements_eq_error_iff]
    simp only [Nat.zero_add]
    exact Iff.rfl
  | like x ignoreCase =>
    rw [compile, map_eq_error_iff]
    exact pattern_eq_error_iff
  | notLike x ignoreCase =>
    rw [compile, map_eq_error_iff]
    exact pattern_eq_error_iff

theorem matches_some_iff {ignoreCase : Bool} {v : Option Scalar} {b : Scalar} :
    Scalar.Matches ignoreCase v (some b) ↔ v.any (Scalar.equals ignoreCase · b) = true := by
  cases v <;> simp [Scalar.Matches]

theorem matches_none_iff {ignoreCase : Bool} {v : Option Scalar} :
    Scalar.Matches ignoreCase v none ↔ v = none := by
  simp [Scalar.Matches]

/-- An ordering leaf holds exactly of the values in that order. -/
theorem holds_order_iff {path : FieldPath} {op : OrderOp} {b : Scalar} :
    (Expression.compare path (.order op) b false).holds r = true ↔
      Scalar.Ordered op (path.read r) (some b) := by
  rw [Expression.holds]
  cases path.read r with
  | none => simp [Scalar.Ordered]
  | some a =>
    cases hcompare : Scalar.compare? false a b <;>
      simp [Scalar.Ordered, CompareOp.holds, OrderOp.holds_iff, hcompare]

/-- A range leaf is two ordering leaves. -/
theorem holds_between_iff {path : FieldPath} {low high : Scalar} :
    (Expression.between path low high).holds r = true ↔
      Scalar.Ordered .greaterOrEqual (path.read r) (some low) ∧
        Scalar.Ordered .lessOrEqual (path.read r) (some high) := by
  rw [← holds_order_iff, ← holds_order_iff, ← Bool.and_eq_true]
  simp only [Expression.holds]
  cases path.read r <;> rfl

/-- Membership among scalars is membership among the operands that project to them. -/
theorem isOneOf_iff {ignoreCase : Bool} {xs : List α} {vs : List Scalar}
    (h : xs.map f.project = vs.map some) {v : Option Scalar} :
    v.any (Expression.isOneOf ignoreCase vs) = true ↔
      ∃ x ∈ xs, Scalar.Matches ignoreCase v (f.operand (some x)) := by
  have hscalars : v.any (Expression.isOneOf ignoreCase vs) = true ↔
      ∃ b ∈ vs, Scalar.Matches ignoreCase v (some b) := by
    cases v <;> simp [Expression.isOneOf, matches_some_iff]
  rw [hscalars]
  constructor
  · rintro ⟨b, hb, hmatch⟩
    have hmem : some b ∈ xs.map f.project := h ▸ List.mem_map_of_mem hb
    obtain ⟨x, hx, hproject⟩ := List.mem_map.1 hmem
    exact ⟨x, hx, by rw [operand, Option.bind_some, hproject]; exact hmatch⟩
  · rintro ⟨x, hx, hmatch⟩
    have hmem : f.project x ∈ vs.map some := h ▸ List.mem_map_of_mem hx
    obtain ⟨b, hb, hproject⟩ := List.mem_map.1 hmem
    rw [operand, Option.bind_some, ← hproject] at hmatch
    exact ⟨b, hb, hmatch⟩

/-- A compiled comparison holds of the records whose value meets it. -/
theorem holds_of_compile {x : Expression} (h : f.compile p = .ok x) :
    x.holds r = true ↔ f.Meets (f.path.read r) p := by
  cases p with
  | equalTo y ignoreCase =>
    rw [compile] at h
    rw [Meets]
    cases hy : f.operand y with
    | none =>
      -- An operand that is null asks for null.
      rw [hy] at h
      cases h
      rw [matches_none_iff, Expression.holds, Option.isNone_iff_eq_none]
    | some b =>
      rw [hy] at h
      cases h
      rw [matches_some_iff]
      simp [Expression.holds, CompareOp.holds, Scalar.equals]
  | notEqualTo y ignoreCase =>
    rw [compile] at h
    rw [Meets]
    cases hy : f.operand y with
    | none =>
      rw [hy] at h
      cases h
      rw [matches_none_iff, Expression.holds, Option.isSome_iff_ne_none]
    | some b =>
      -- A null field fails the leaf and is let in by the test for null beside it.
      rw [hy] at h
      cases h
      rw [matches_some_iff]
      simp only [Expression.holds, CompareOp.holds]
      cases f.path.read r <;> simp [Scalar.equals]
  | ordered op y =>
    rw [compile, map_eq_ok_iff] at h
    obtain ⟨b, hy, rfl⟩ := h
    rw [Meets, requiredOperand_eq_ok_iff.1 hy, holds_order_iff]
  | between low high =>
    rw [Meets]
    cases hlow : f.requiredOperand "Between" low with
    | error fault =>
      simp [compile, Predicate.operator, hlow, bind, Except.bind] at h
    | ok a =>
      cases hhigh : f.requiredOperand "Between" high with
      | error fault =>
        simp [compile, Predicate.operator, hlow, hhigh, bind, Except.bind] at h
      | ok b =>
        simp only [compile, Predicate.operator, hlow, hhigh, bind, Except.bind, pure,
          Except.pure, Except.ok.injEq] at h
        subst h
        rw [requiredOperand_eq_ok_iff.1 hlow, requiredOperand_eq_ok_iff.1 hhigh,
          holds_between_iff]
  | within xs ignoreCase =>
    rw [compile, map_eq_ok_iff] at h
    obtain ⟨vs, hxs, rfl⟩ := h
    exact isOneOf_iff (elements_eq_ok hxs)
  | notWithin xs ignoreCase =>
    rw [compile, map_eq_ok_iff] at h
    obtain ⟨vs, hxs, rfl⟩ := h
    rw [Meets, ← isOneOf_iff (elements_eq_ok hxs), Expression.holds]
    -- Membership fails on a null field, and so does its negation.
    cases f.path.read r <;> simp
  | like y ignoreCase =>
    rw [compile, map_eq_ok_iff] at h
    obtain ⟨pattern, hy, rfl⟩ := h
    rw [Meets, pattern_eq_ok_iff.1 hy, Expression.holds]
    cases f.path.read r with
    | none => simp
    | some v => cases v <;> simp [Scalar.text?]
  | notLike y ignoreCase =>
    rw [compile, map_eq_ok_iff] at h
    obtain ⟨pattern, hy, rfl⟩ := h
    rw [Meets, pattern_eq_ok_iff.1 hy, Expression.holds]
    cases f.path.read r with
    | none => simp
    | some v => cases v <;> simp [Scalar.text?]

/-- A comparison without a fault compiles to the test for the values that meet it. -/
theorem exists_compile (f : Field α) (p : Predicate α) (h : ∀ e, ¬ f.Rejects e p) :
    ∃ x, f.compile p = .ok x ∧ ∀ r, x.holds r = true ↔ f.Meets (f.path.read r) p := by
  cases hcompile : f.compile p with
  | error e => exact absurd (compile_eq_error_iff.1 hcompile) (h e)
  | ok x => exact ⟨x, rfl, fun r => holds_of_compile hcompile⟩

/-- Compiling a comparison of a field, whatever the projection of its operands: it fails exactly
    for the faulty ones, each with its fault; it goes through for all others; and the expression
    holds of a record exactly when the value of the field meets the comparison. -/
theorem compile_meaning (f : Field α) (p : Predicate α) :
    (∀ e, f.compile p = .error e ↔ f.Rejects e p) ∧
      ((∃ x, f.compile p = .ok x) ↔ ∀ e, ¬ f.Rejects e p) ∧
      ∀ x, f.compile p = .ok x → ∀ r, x.holds r = true ↔ f.Meets (f.path.read r) p := by
  refine ⟨fun e => compile_eq_error_iff, ?_, fun x h r => holds_of_compile h⟩
  simp only [← compile_eq_error_iff]
  cases f.compile p <;> simp

end Field

end LedgerQuery
