/-
  LedgerQuery.Order

  Orders taken over from another type: through a map that tells all values apart, or through one
  that keeps what is smaller.
-/

namespace LedgerQuery

open Std

/-- An order taken over through an injective map decides equality. -/
theorem lawfulEqCmp_compareOn {α β : Type} [Ord β] [LawfulEqOrd β] (f : α → β)
    (hinjective : ∀ a b, f a = f b → a = b) : LawfulEqCmp (compareOn f) where
  eq_of_compare {a b} h := hinjective a b (compare_eq_iff_eq.1 h)
  compare_self {a} := show compare (f a) (f a) = .eq from Std.compare_self

/-- Two orders applied one after the other decide equality if their maps together do. -/
theorem lawfulEqCmp_compareLex {α β γ : Type} [Ord β] [LawfulEqOrd β] [Ord γ] [LawfulEqOrd γ]
    (f : α → β) (g : α → γ) (hinjective : ∀ a b, f a = f b → g a = g b → a = b) :
    LawfulEqCmp (compareLex (compareOn f) (compareOn g)) where
  eq_of_compare {a b} h :=
    have hparts := Ordering.then_eq_eq.1 h
    hinjective a b (compare_eq_iff_eq.1 hparts.1) (compare_eq_iff_eq.1 hparts.2)
  compare_self {a} := Ordering.then_eq_eq.2
    ⟨show compare (f a) (f a) = .eq from Std.compare_self,
      show compare (g a) (g a) = .eq from Std.compare_self⟩

/-- A map that keeps what is smaller keeps the order. -/
theorem compare_eq_compare_map {α β : Type} [Ord α] [LT α] [LE α] [LawfulOrderOrd α]
    [LawfulOrderLT α] [Ord β] [LT β] [LE β] [LawfulOrderOrd β] [LawfulOrderLT β] (f : α → β)
    (h : ∀ {a b}, a < b ↔ f a < f b) (a b : α) : compare a b = compare (f a) (f b) := by
  cases hmapped : compare (f a) (f b) with
  | lt => exact compare_eq_lt.2 (h.2 (compare_eq_lt.1 hmapped))
  | gt => exact compare_eq_gt.2 (h.2 (compare_eq_gt.1 hmapped))
  | eq =>
    cases horder : compare a b with
    | lt => rw [compare_eq_lt.2 (h.1 (compare_eq_lt.1 horder))] at hmapped; cases hmapped
    | gt => rw [compare_eq_gt.2 (h.1 (compare_eq_gt.1 horder))] at hmapped; cases hmapped
    | eq => rfl

end LedgerQuery
