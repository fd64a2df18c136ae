/-
  LedgerQuery.Proofs.Record.Lineage

  The lineage of a record type. It lists the type, its supertypes and the root, each of them once,
  in the order in which they are first declared (`Lists`). So it ends in the root, unless the root
  is declared in front of a type that has not been declared before. Main statement:
  `lineage_lists_declared`.
-/
import LedgerQuery.Record.Schema
import Mathlib.Data.List.Basic

namespace LedgerQuery

namespace RecordType

variable {declared types : List RecordType} {own s t : RecordType}

/-! ## Lists of declared types -/

/-- The types of a declaration, each of them once, in the order in which they are first declared. -/
structure Lists (declared types : List RecordType) : Prop where
  mem_iff : ∀ t, t ∈ types ↔ t ∈ declared
  ordered : types.Pairwise fun s t => declared.idxOf s < declared.idxOf t

namespace Lists

theorem singleton (t : RecordType) : Lists [t] [t] :=
  ⟨fun _ => Iff.rfl, List.pairwise_singleton _ _⟩

/-- A type that is declared after others is added, unless it is one of them. -/
theorem extend (h : Lists declared types) (t : RecordType) :
    Lists (declared ++ [t]) (RecordType.extend types t) := by
  -- The types so far stay where they were first declared.
  have hordered : types.Pairwise fun s u =>
      (declared ++ [t]).idxOf s < (declared ++ [t]).idxOf u := by
    refine h.ordered.imp_of_mem fun {s u} hs hu hlt => ?_
    rwa [List.idxOf_append_of_mem ((h.mem_iff s).1 hs),
      List.idxOf_append_of_mem ((h.mem_iff u).1 hu)]
  by_cases ht : t ∈ types
  · rw [RecordType.extend, if_pos ht]
    refine ⟨fun u => ?_, hordered⟩
    rw [List.mem_append, List.mem_singleton, ← h.mem_iff]
    exact ⟨.inl, fun hu => hu.elim id fun heq => heq ▸ ht⟩
  · rw [RecordType.extend, if_neg ht]
    refine ⟨fun u => by rw [List.mem_append, List.mem_append, h.mem_iff],
      List.pairwise_append.2 ⟨hordered, List.pairwise_singleton _ _, fun s hs u hu => ?_⟩⟩
    have hs' := (h.mem_iff s).1 hs
    rw [List.mem_singleton.1 hu, List.idxOf_append_of_mem hs',
      List.idxOf_append_of_notMem (mt (h.mem_iff t).2 ht)]
    exact Nat.lt_add_right _ (List.idxOf_lt_length_iff.2 hs')

theorem foldl_extend (h : Lists declared types) (more : List RecordType) :
    Lists (declared ++ more) (more.foldl RecordType.extend types) := by
  induction more generalizing declared types with
  | nil => rwa [List.append_nil]
  | cons t more ih =>
    rw [List.foldl_cons, List.append_cons]
    exact ih (h.extend t)

theorem nodup (h : Lists declared types) : types.Nodup :=
  h.ordered.imp fun hlt heq => Nat.ne_of_lt hlt (congrArg declared.idxOf heq)

/-- The first type declared comes first. -/
theorem head?_eq (h : Lists (own :: declared) types) : types.head? = some own := by
  have hown : own ∈ types := (h.mem_iff own).2 List.mem_cons_self
  cases types with
  | nil => cases hown
  | cons first rest =>
    rcases List.mem_cons.1 hown with rfl | hrest
    · rfl
    · have hlt := List.rel_of_pairwise_cons h.ordered hrest
      rw [List.idxOf_cons_self] at hlt
      exact absurd hlt (Nat.not_lt_zero _)

/-- One type comes before another if it is declared before. -/
theorem idxOf_lt_iff (h : Lists declared types) (hs : s ∈ types) (ht : t ∈ types) :
    types.idxOf s < types.idxOf t ↔ declared.idxOf s < declared.idxOf t := by
  have hmono {u v : RecordType} (hu : u ∈ types) (hv : v ∈ types)
      (hlt : types.idxOf u < types.idxOf v) : declared.idxOf u < declared.idxOf v := by
    have hpair := List.pairwise_iff_getElem.1 h.ordered _ _ (List.idxOf_lt_length_iff.2 hu)
      (List.idxOf_lt_length_iff.2 hv) hlt
    rwa [List.getElem_idxOf, List.getElem_idxOf] at hpair
  refine ⟨hmono hs ht, fun hlt => ?_⟩
  rcases Nat.lt_trichotomy (types.idxOf s) (types.idxOf t) with hbefore | hsame | hafter
  · exact hbefore
  · rw [(List.idxOf_inj hs).1 hsame] at hlt
    exact absurd hlt (Nat.lt_irrefl _)
  · exact absurd hlt (Nat.lt_asymm (hmono ht hs hafter))

/-- The last type is the one that no other is first declared after. -/
theorem getLast?_eq_some_iff (h : Lists declared types) :
    types.getLast? = some t ↔
      t ∈ declared ∧ ∀ s ∈ declared, declared.idxOf s ≤ declared.idxOf t := by
  have hlast {u : RecordType} (hu : types.getLast? = some u) :
      u ∈ declared ∧ ∀ s ∈ declared, declared.idxOf s ≤ declared.idxOf u := by
    obtain ⟨before, rfl⟩ := List.getLast?_eq_some_iff.1 hu
    refine ⟨(h.mem_iff u).1 (List.mem_append_right _ (List.mem_singleton_self u)), fun s hs => ?_⟩
    rcases List.mem_append.1 ((h.mem_iff s).2 hs) with hbefore | hself
    · exact Nat.le_of_lt
        ((List.pairwise_append.1 h.ordered).2.2 s hbefore u (List.mem_singleton_self u))
    · exact Nat.le_of_eq (congrArg declared.idxOf (List.mem_singleton.1 hself))
  refine ⟨hlast, fun ⟨ht, hmax⟩ => ?_⟩
  obtain ⟨u, hu⟩ := Option.isSome_iff_exists.1
    (List.getLast?_isSome.2 (List.ne_nil_of_mem ((h.mem_iff t).2 ht)))
  obtain ⟨hmem, hmaxu⟩ := hlast hu
  rw [hu, (List.idxOf_inj hmem).1 (Nat.le_antisymm (hmax u hmem) (hmaxu t ht))]

end Lists

/-! ## The root -/

/-- Behind the place where the root is first declared, no type is declared for the first time. -/
def ClosedByRoot (declared : List RecordType) : Prop :=
  ∀ front rest, declared = front ++ any :: rest → any ∉ front → ∀ t ∈ rest, t = any ∨ t ∈ front

/-- What is first declared no later than a type stands in front of its first place, or there. -/
theorem idxOf_le_idxOf_iff {front rest : List RecordType} (h : t ∉ front) :
    (front ++ t :: rest).idxOf s ≤ (front ++ t :: rest).idxOf t ↔ s = t ∨ s ∈ front := by
  rw [List.idxOf_append_of_notMem h, List.idxOf_cons_self, Nat.add_zero]
  by_cases hs : s ∈ front
  · rw [List.idxOf_append_of_mem hs]
    exact iff_of_true (Nat.le_of_lt (List.idxOf_lt_length_iff.2 hs)) (.inr hs)
  · rw [List.idxOf_append_of_notMem hs]
    by_cases hst : s = t
    · rw [hst, List.idxOf_cons_self]
      exact iff_of_true (Nat.le_refl _) (.inl rfl)
    · rw [List.idxOf_cons_ne _ (Ne.symm hst)]
      exact iff_of_false (by omega) (not_or.2 ⟨hst, hs⟩)

/-- Where the root is declared at the end in any case, it is the last to be declared for the first
    time if it closes what is in front of the end. -/
theorem forall_idxOf_le_iff :
    (∀ s ∈ declared ++ [any], (declared ++ [any]).idxOf s ≤ (declared ++ [any]).idxOf any) ↔
      ClosedByRoot declared := by
  constructor
  · rintro h front rest rfl hfirst t ht
    have hle := h t (List.mem_append_left _ (List.mem_append_right _ (List.mem_cons_of_mem _ ht)))
    rw [List.append_assoc] at hle
    exact (idxOf_le_idxOf_iff hfirst).1 hle
  · intro h s hs
    by_cases hroot : any ∈ declared
    · obtain ⟨front, rest, rfl, hfirst⟩ := List.eq_append_cons_of_mem hroot
      rw [List.append_assoc, List.cons_append, idxOf_le_idxOf_iff hfirst]
      rcases List.mem_append.1 hs with hdeclared | hend
      · rcases List.mem_append.1 hdeclared with hfront | hrest
        · exact .inr hfront
        · exact (List.mem_cons.1 hrest).elim .inl (h front rest rfl hfirst s)
      · exact .inl (List.mem_singleton.1 hend)
    · -- The root comes in at the end only, and all that is declared is in front of it.
      rw [idxOf_le_idxOf_iff hroot]
      exact (List.mem_append.1 hs).symm.imp_left List.mem_singleton.1

/-! ## The lineage -/

/-- A lineage lists the type, its supertypes and the root, in that order of declaration. -/
theorem lists_lineage (own : RecordType) (declared : List RecordType) :
    Lists (own :: declared ++ [any]) (own.lineage declared) :=
  ((Lists.singleton own).foldl_extend declared).extend any

theorem head?_lineage (own : RecordType) (declared : List RecordType) :
    (own.lineage declared).head? = some own :=
  (lists_lineage own declared).head?_eq

theorem mem_lineage_iff : t ∈ own.lineage declared ↔ t = own ∨ t ∈ declared ∨ t = any := by
  rw [(lists_lineage own declared).mem_iff, List.cons_append, List.mem_cons, List.mem_append,
    List.mem_singleton]

/-- Supertypes are listed in the order in which they are first declared. -/
theorem idxOf_lineage_lt_iff (hs : s ∈ declared) (ht : t ∈ declared) (hsown : s ≠ own)
    (htown : t ≠ own) : (own.lineage declared).idxOf s < (own.lineage declared).idxOf t ↔
      declared.idxOf s < declared.idxOf t := by
  have hplace {u : RecordType} (hu : u ∈ declared) (hne : u ≠ own) :
      (own :: declared ++ [any]).idxOf u = declared.idxOf u + 1 := by
    rw [List.cons_append, List.idxOf_cons_ne _ hne.symm, List.idxOf_append_of_mem hu]
  rw [(lists_lineage own declared).idxOf_lt_iff (mem_lineage_iff.2 (.inr (.inl hs)))
    (mem_lineage_iff.2 (.inr (.inl ht))), hplace hs hsown, hplace ht htown,
    Nat.add_lt_add_iff_right]

/-- A lineage ends in the root if no type is declared for the first time behind it. -/
theorem getLast?_lineage_eq_any_iff :
    (own.lineage declared).getLast? = some any ↔ ClosedByRoot (own :: declared) := by
  rw [(lists_lineage own declared).getLast?_eq_some_iff, forall_idxOf_le_iff]
  exact and_iff_right (List.mem_append_right _ (List.mem_singleton_self any))

end RecordType

/-! ## Records that hold a state -/

namespace StoredRecord

variable {α : Type} [RecordState α] (reference : RecordRef) (back : Option RecordRef) (state : α)
  (now : Instant)

/-- The own type of a record is that of the state it holds. -/
theorem recordType_ofState : (ofState reference back state now).recordType =
    RecordState.recordType α := by
  rw [recordType, List.headD_eq_head?_getD, ofState, RecordState.lineage,
    RecordType.head?_lineage, Option.getD_some]

/-- A record may be viewed as the type of the state it holds, as a declared supertype of it and as
    the root. -/
theorem isAssignableTo_ofState (t : RecordType) :
    (ofState reference back state now).isAssignableTo t = true ↔
      t = RecordState.recordType α ∨ t ∈ RecordState.supertypes α ∨ t = .any := by
  rw [isAssignableTo, decide_eq_true_iff, ofState, RecordState.lineage, RecordType.mem_lineage_iff]
  -- The root is in every lineage, so that to allow it anyway makes no difference.
  exact or_iff_right_of_imp fun hroot => .inr (.inr hroot)

end StoredRecord

namespace RecordState

/-- The lineage of record states starts with their type, lists that, the declared supertypes and
    the root, each of them once, and has the supertypes in the order in which they are first
    declared. It ends in the root exactly if no type is declared for the first time behind it. -/
theorem lineage_lists_declared (α : Type) [RecordState α] :
    let own := recordType α
    let declared := supertypes α
    let lineage := lineage α
    lineage.head? = some own ∧ lineage.Nodup ∧
      (∀ t, t ∈ lineage ↔ t = own ∨ t ∈ declared ∨ t = .any) ∧
      (∀ s ∈ declared, ∀ t ∈ declared, s ≠ own → t ≠ own →
        (lineage.idxOf s < lineage.idxOf t ↔ declared.idxOf s < declared.idxOf t)) ∧
      (lineage.getLast? = some .any ↔ RecordType.ClosedByRoot (own :: declared)) := by
  intro own declared lineage
  exact ⟨RecordType.head?_lineage own declared, (RecordType.lists_lineage own declared).nodup,
    fun _ => RecordType.mem_lineage_iff,
    fun _ hs _ ht hsown htown => RecordType.idxOf_lineage_lt_iff hs ht hsown htown,
    RecordType.getLast?_lineage_eq_any_iff⟩

/-- A type that declares the root in front of another supertype: the lineage ends in that one. -/
theorem lineage_lists_declared_rootInside :
    let order : Schema :=
      { name := "test.Order", unreadable := fun _ => "invalid type: null, expected struct Order",
        supertypes := ["test.Named", "*", "test.Named", "test.Priced"] }
    lineage order.State = [⟨"test.Order"⟩, ⟨"test.Named"⟩, .any, ⟨"test.Priced"⟩] ∧
      (lineage order.State).getLast? ≠ some .any := by
  intro order
  refine ⟨by decide, fun hlast => ?_⟩
  obtain ⟨-, -, -, -, hends⟩ := lineage_lists_declared order.State
  have hnew := hends.1 hlast [⟨"test.Order"⟩, ⟨"test.Named"⟩] [⟨"test.Named"⟩, ⟨"test.Priced"⟩] rfl
    (by decide) ⟨"test.Priced"⟩ (by decide)
  exact absurd hnew (by decide)

end RecordState

end LedgerQuery
