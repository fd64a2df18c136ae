/-
  LedgerQuery.SortedSet

  Finite sets kept as strictly ascending lists, so that each set has one list. Main statement:
  `mem_insert`, membership after an insertion.
-/

namespace LedgerQuery

open Std

/-- A finite set, as the list of its members in ascending order. -/
structure SortedSet (α : Type) [Ord α] where
  toList : List α
  ascending : toList.Pairwise fun a b => compare a b = .lt

namespace SortedSet

variable {α : Type} [Ord α]

instance [DecidableEq α] : DecidableEq (SortedSet α) := fun s t =>
  if h : s.toList = t.toList then .isTrue (by cases s; cases t; cases h; rfl)
  else .isFalse fun e => h (e ▸ rfl)

def empty : SortedSet α := ⟨[], .nil⟩

instance : EmptyCollection (SortedSet α) := ⟨empty⟩

def contains [DecidableEq α] (s : SortedSet α) (x : α) : Bool := decide (x ∈ s.toList)

@[simp] theorem contains_empty [DecidableEq α] (x : α) :
    (∅ : SortedSet α).contains x = false :=
  decide_eq_false List.not_mem_nil

/-! ## Insertion -/

/-- Put a member into its place in an ascending list, unless it is there. -/
def place (x : α) : List α → List α
  | [] => [x]
  | y :: ys =>
    match compare x y with
    | .lt => x :: y :: ys
    | .eq => y :: ys
    | .gt => y :: place x ys

theorem mem_place [LawfulEqOrd α] {x z : α} {ys : List α} :
    z ∈ place x ys ↔ z = x ∨ z ∈ ys := by
  induction ys with
  | nil => simp [place]
  | cons y ys ih =>
    unfold place
    split
    · simp
    · rename_i h
      cases LawfulEqCmp.eq_of_compare h
      simp
    · simp only [List.mem_cons, ih]
      exact or_left_comm

theorem pairwise_place [TransOrd α] [LawfulEqOrd α] {x : α} {ys : List α}
    (h : ys.Pairwise fun a b => compare a b = .lt) :
    (place x ys).Pairwise fun a b => compare a b = .lt := by
  induction ys with
  | nil => simp [place]
  | cons y ys ih =>
    have ⟨hfirst, hrest⟩ := List.pairwise_cons.1 h
    unfold place
    split
    · rename_i hless
      refine List.pairwise_cons.2 ⟨fun z hz => ?_, h⟩
      rcases List.mem_cons.1 hz with rfl | hz
      · exact hless
      · exact TransCmp.lt_trans hless (hfirst z hz)
    · exact h
    · rename_i hgreater
      refine List.pairwise_cons.2 ⟨fun z hz => ?_, ih hrest⟩
      rcases mem_place.1 hz with rfl | hz
      · exact OrientedCmp.gt_iff_lt.1 hgreater
      · exact hfirst z hz

theorem place_last [TransOrd α] {x : α} {ys : List α} (h : ∀ y ∈ ys, compare y x = .lt) :
    place x ys = ys ++ [x] := by
  induction ys with
  | nil => rfl
  | cons y ys ih =>
    have ⟨hfirst, hrest⟩ := List.forall_mem_cons.1 h
    have hafter : compare x y = .gt := OrientedCmp.gt_iff_lt.2 hfirst
    simp only [place, hafter, ih hrest, List.cons_append]

variable [TransOrd α] [LawfulEqOrd α]

def insert (s : SortedSet α) (x : α) : SortedSet α :=
  ⟨place x s.toList, pairwise_place s.ascending⟩

def singleton (x : α) : SortedSet α := empty.insert x

/-- The set of a list's members. -/
def ofList (xs : List α) : SortedSet α := xs.foldl insert empty

theorem mem_insert {s : SortedSet α} {x z : α} :
    z ∈ (s.insert x).toList ↔ z = x ∨ z ∈ s.toList := mem_place

theorem mem_foldl_insert {xs : List α} {s : SortedSet α} {z : α} :
    z ∈ (xs.foldl insert s).toList ↔ z ∈ s.toList ∨ z ∈ xs := by
  induction xs generalizing s with
  | nil => simp
  | cons x xs ih =>
    simp only [List.foldl_cons, ih, mem_insert, List.mem_cons]
    exact ⟨fun h => by rcases h with (h | h) | h <;> simp [h],
      fun h => by rcases h with h | h | h <;> simp [h]⟩

theorem mem_ofList {xs : List α} {z : α} : z ∈ (ofList xs).toList ↔ z ∈ xs := by
  simp [ofList, mem_foldl_insert, empty]

@[simp] theorem contains_ofList [DecidableEq α] (xs : List α) (z : α) :
    (ofList xs).contains z = decide (z ∈ xs) :=
  decide_eq_decide.2 mem_ofList

theorem toList_foldl_insert {xs : List α} {s : SortedSet α}
    (h : (s.toList ++ xs).Pairwise fun a b => compare a b = .lt) :
    (xs.foldl insert s).toList = s.toList ++ xs := by
  induction xs generalizing s with
  | nil => simp
  | cons x xs ih =>
    have hearlier : ∀ y ∈ s.toList, compare y x = .lt := fun y hy =>
      (List.pairwise_append.1 h).2.2 y hy x List.mem_cons_self
    have hplaced : (s.insert x).toList = s.toList ++ [x] := place_last hearlier
    rw [List.append_cons, ← hplaced] at h
    rw [List.foldl_cons, ih h, hplaced, ← List.append_cons]

/-- A set is that of its own list. -/
@[simp] theorem ofList_toList (s : SortedSet α) : ofList s.toList = s := by
  have hmembers : (ofList s.toList).toList = s.toList := toList_foldl_insert s.ascending
  cases h : ofList s.toList
  rw [h] at hmembers
  cases hmembers
  rfl

end SortedSet

end LedgerQuery
