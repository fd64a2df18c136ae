/-
  LedgerQuery.Proofs.Query.Sorting

  Sorting goes by a total preorder. Scalars are ordered by their kind, by whether they are numbers
  at all, by their exact value and by their text, one after the other (`Scalar.sortCompare_eq`), so
  integers and doubles of any size mix; columns, each forwards or backwards, are ordered one after
  the other again (`SortOrder.transCmp_order`). What is arranged by columns therefore never descends
  (`SortOrder.arrange_pairwise`), and records that the columns do not tell apart keep their places
  (`SortOrder.arrange_sublist`). Main statement: `sorts_by_total_preorder`.
-/
import LedgerQuery.Proofs.Number.Compare
import LedgerQuery.Query.Sorting

namespace LedgerQuery

open Std

/-! ## Scalars -/

namespace Scalar

variable {a b : Scalar}

/-- The exact value of a scalar: a number in units, a truth value as zero or one, and zero for
    what has no value. -/
def value : Scalar → Int
  | .bool b => if b then 1 else 0
  | .int n => n.toInt * Binary64.unitsPerOne
  | .float x => if x.isNaN then 0 else x.units
  | .text _ => 0

/-- What is no number has neither a value nor a text. -/
theorem value_of_isNaN (h : a.isNaN = true) : a.value = 0 ∧ a.text? = none := by
  cases a with
  | float x => exact ⟨if_pos h, rfl⟩
  | bool _ | int _ | text _ => cases h

theorem compare?_int_float (n : Int64) (x : Binary64) :
    compare? false (.int n) (.float x) =
      if x.isNaN then none else some (compare (value (.int n)) (value (.float x))) := by
  cases hx : x.isNaN with
  | true => exact Binary64.compareInt?_eq_none n.toInt hx
  | false =>
    simp only [value, hx, Bool.false_eq_true, if_false]
    exact Binary64.compareInt?_eq_some n hx

theorem compare?_float_float (x y : Binary64) :
    compare? false (.float x) (.float y) =
      if x.isNaN || y.isNaN then none
      else some (compare (value (.float x)) (value (.float y))) := by
  show (if x.isNaN || y.isNaN then none else some (compare x.units y.units)) = _
  split
  · rfl
  · rename_i hnumbers
    obtain ⟨hx, hy⟩ := not_or.1 (mt Bool.or_eq_true_iff.2 hnumbers)
    rw [value, if_neg hx, value, if_neg hy]

/-- Within a kind, what is a number is compared by its value, and text by itself. -/
theorem compare?_of_rank_eq (h : a.rank = b.rank) :
    compare? false a b =
      if a.isNaN || b.isNaN then none
      else some ((compare a.value b.value).then (compare a.text? b.text?)) := by
  cases a with
  | bool a =>
    cases b with
    | bool b => cases a <;> cases b <;> rfl
    | int _ | float _ | text _ => cases h
  | int n =>
    cases b with
    | int m =>
      have hunits := compare_mul_unit n.toInt m.toInt Binary64.unitsPerOne_pos
      show some (compare n m) = some ((compare (n.toInt * _) (m.toInt * _)).then .eq)
      rw [Ordering.then_eq, hunits, compare_eq_compare_toInt]
    | float y =>
      rw [compare?_int_float]
      show _ = if y.isNaN then none else some ((compare _ _).then .eq)
      rw [Ordering.then_eq]
    | bool _ | text _ => cases h
  | float x =>
    cases b with
    | int m =>
      -- The integer is compared with the double, and the outcome is turned round.
      have hswapped : compare? false (.float x) (.int m) =
          (compare? false (.int m) (.float x)).map Ordering.swap := rfl
      have hvalues : compare (value (.float x)) (value (.int m)) =
          (compare (value (.int m)) (value (.float x))).swap := OrientedCmp.eq_swap
      show _ = if x.isNaN || false then none else some ((compare _ _).then .eq)
      rw [hswapped, compare?_int_float, Bool.or_false, Ordering.then_eq, hvalues]
      split <;> rfl
    | float y =>
      rw [compare?_float_float]
      show _ = if x.isNaN || y.isNaN then none else some ((compare _ _).then .eq)
      rw [Ordering.then_eq]
    | bool _ | text _ => cases h
  | text s =>
    cases b with
    | text t => rfl
    | bool _ | int _ | float _ => cases h

/-- The order for sorting: by the kind, what is no number after all numbers, then by the value,
    then by the text. -/
theorem sortCompare_eq : sortCompare = compareLex (compareOn rank) (compareLex (compareOn isNaN)
    (compareLex (compareOn value) (compareOn text?))) := by
  funext a b
  show (compare a.rank b.rank).then _ = (compare a.rank b.rank).then ((compare a.isNaN b.isNaN).then
    ((compare a.value b.value).then (compare a.text? b.text?)))
  cases hrank : compare a.rank b.rank with
  | lt => rfl
  | gt => rfl
  | eq =>
    rw [compare?_of_rank_eq (LawfulEqOrd.eq_of_compare hrank)]
    cases ha : a.isNaN with
    | false => cases b.isNaN <;> rfl
    | true =>
      cases hb : b.isNaN with
      | false => rfl
      | true =>
        -- Two that are no numbers are told apart by nothing.
        rw [(value_of_isNaN ha).1, (value_of_isNaN ha).2, (value_of_isNaN hb).1,
          (value_of_isNaN hb).2, compare_self]
        rfl

instance : TransCmp sortCompare := by
  rw [sortCompare_eq]
  infer_instance

instance : TransCmp sortCompareOption where
  eq_swap {a b} := by
    cases a with
    | none => cases b <;> rfl
    | some x =>
      cases b with
      | none => rfl
      | some y => exact (OrientedCmp.eq_swap : x.sortCompare y = (y.sortCompare x).swap)
  isLE_trans {a b c} hab hbc := by
    cases a with
    | none => cases c <;> rfl
    | some x =>
      cases b with
      | none => cases hab
      | some y =>
        cases c with
        | none => cases hbc
        | some z =>
          have htrans : (x.sortCompare z).isLE = true := TransCmp.isLE_trans hab hbc
          exact htrans

end Scalar

/-! ## Columns -/

/-- The order that a key gives to records is a total preorder. -/
theorem SortKey.transCmp_order (key : SortKey) : TransCmp fun a b => key.order a b := by
  cases key with
  | recordedAt => exact inferInstanceAs (TransCmp (compareOn StoredRecord.recordedAt))
  | consumedAt => exact inferInstanceAs (TransCmp (compareOn StoredRecord.consumedAt))
  | reference => exact inferInstanceAs (TransCmp (compareOn StoredRecord.reference))
  | field path =>
    have hscalars : TransCmp Scalar.sortCompareOption := inferInstance
    exact { eq_swap := hscalars.eq_swap, isLE_trans := hscalars.isLE_trans }

/-- A reversed order is a total preorder as well. -/
theorem Direction.transCmp_apply {α : Type} (cmp : α → α → Ordering) [TransCmp cmp]
    (d : Direction) : TransCmp fun a b => d.apply (cmp a b) := by
  cases d with
  | ascending => exact inferInstanceAs (TransCmp cmp)
  | descending =>
    have hreversed : (fun a b => Direction.descending.apply (cmp a b)) = fun a b => cmp b a :=
      funext fun a => funext fun b => (OrientedCmp.eq_swap : cmp b a = (cmp a b).swap).symm
    rw [hreversed]
    exact TransCmp.opposite

/-- An order that tells two things apart does so in both directions. -/
theorem Direction.apply_ne_eq {o : Ordering} (d : Direction) (h : o ≠ .eq) : d.apply o ≠ .eq := by
  cases d with
  | ascending => exact h
  | descending => exact fun heq => h (Ordering.swap_eq_eq.1 heq)

namespace SortOrder

variable {s : SortOrder} {records : List StoredRecord}

/-- The first column, then those after it. -/
theorem order_cons (column : SortColumn) (rest : List SortColumn) :
    order ⟨column :: rest⟩ =
      compareLex (fun a b => column.direction.apply (column.key.order a b)) (order ⟨rest⟩) := rfl

/-- The order that columns give to records is a total preorder. -/
theorem transCmp_order (s : SortOrder) : TransCmp s.order := by
  obtain ⟨columns⟩ := s
  induction columns with
  | nil => exact { eq_swap := rfl, isLE_trans := fun _ _ => rfl }
  | cons column rest ih =>
    have hkey := column.key.transCmp_order
    have hcolumn := column.direction.transCmp_apply (fun a b => column.key.order a b)
    rw [order_cons]
    infer_instance

theorem isLE_trans (s : SortOrder) (a b c : StoredRecord) (hab : (s.order a b).isLE = true)
    (hbc : (s.order b c).isLE = true) : (s.order a c).isLE = true :=
  have := s.transCmp_order
  TransCmp.isLE_trans hab hbc

theorem order_swap (s : SortOrder) (a b : StoredRecord) : s.order a b = (s.order b a).swap :=
  have := s.transCmp_order
  OrientedCmp.eq_swap

theorem isLE_total (s : SortOrder) (a b : StoredRecord) :
    ((s.order a b).isLE || (s.order b a).isLE) = true := by
  rw [s.order_swap b a]
  cases s.order a b <;> rfl

/-! ## Arranging -/

/-- Without columns no two records are told apart. -/
theorem order_of_isUnsorted (h : s.isUnsorted = true) (a b : StoredRecord) : s.order a b = .eq := by
  have hcolumns : s.columns = [] := List.isEmpty_iff.1 h
  rw [order, hcolumns]
  rfl

theorem arrange_perm (s : SortOrder) (records : List StoredRecord) :
    (s.arrange records).Perm records := by
  unfold arrange
  split
  · exact .refl _
  · exact List.mergeSort_perm _ _

/-- What is arranged does not descend anywhere. -/
theorem arrange_pairwise (s : SortOrder) (records : List StoredRecord) :
    (s.arrange records).Pairwise fun a b => (s.order a b).isLE = true := by
  unfold arrange
  split
  · rename_i hunsorted
    refine List.pairwise_of_forall fun a b => ?_
    rw [order_of_isUnsorted hunsorted]
    rfl
  · exact List.pairwise_mergeSort s.isLE_trans s.isLE_total records

/-- Records that are in order already, in particular those that the columns do not tell apart, keep
    their places among each other. -/
theorem arrange_sublist {kept : List StoredRecord}
    (hordered : kept.Pairwise fun a b => (s.order a b).isLE = true) (h : kept.Sublist records) :
    kept.Sublist (s.arrange records) := by
  unfold arrange
  split
  · exact h
  · exact List.sublist_mergeSort s.isLE_trans s.isLE_total hordered h

/-! ## Records with references of their own -/

variable {a b : StoredRecord}

/-- Whether columns get to the reference before they get to a time. -/
def referenceFirst : List SortColumn → Bool
  | [] => false
  | ⟨.reference, _⟩ :: _ => true
  | ⟨.field _, _⟩ :: rest => referenceFirst rest
  | ⟨.recordedAt, _⟩ :: _ | ⟨.consumedAt, _⟩ :: _ => false

theorem exists_reference_of_referenceFirst {columns : List SortColumn}
    (h : referenceFirst columns = true) : ∃ c ∈ columns, c.key = .reference := by
  fun_induction referenceFirst columns with
  | case1 => cases h
  | case2 d rest => exact ⟨_, List.mem_cons_self, rfl⟩
  | case3 path d rest ih =>
    obtain ⟨c, hc, hkey⟩ := ih h
    exact ⟨c, List.mem_cons_of_mem _ hc, hkey⟩
  | case4 => cases h
  | case5 => cases h

/-- Columns among which the reference is tell records with different references apart. -/
theorem order_ne_eq (h : ∃ c ∈ s.columns, c.key = .reference) (hne : a.reference ≠ b.reference) :
    s.order a b ≠ .eq := by
  obtain ⟨columns⟩ := s
  induction columns with
  | nil => simp at h
  | cons column rest ih =>
    intro horder
    obtain ⟨hfirst, hrest⟩ := Ordering.then_eq_eq.1 horder
    obtain ⟨c, hc, hkey⟩ := h
    rcases List.mem_cons.1 hc with rfl | hlater
    · rw [hkey] at hfirst
      exact c.direction.apply_ne_eq (fun heq => hne (LawfulEqOrd.eq_of_compare heq)) hfirst
    · exact ih ⟨c, hlater, hkey⟩ hrest

theorem arrange_distinct (hdistinct : (records.map StoredRecord.reference).Nodup) :
    (s.arrange records).Pairwise fun a b => a.reference ≠ b.reference :=
  List.pairwise_map.1 (((s.arrange_perm records).map _).nodup_iff.2 hdistinct)

/-- Arranged by such columns, records ascend throughout. -/
theorem arrange_ascending (h : ∃ c ∈ s.columns, c.key = .reference)
    (hdistinct : (records.map StoredRecord.reference).Nodup) :
    (s.arrange records).Pairwise fun a b => s.order a b = .lt := by
  refine ((s.arrange_pairwise records).and (arrange_distinct hdistinct)).imp fun {a b} hab => ?_
  cases horder : s.order a b with
  | lt => rfl
  | eq => exact absurd horder (order_ne_eq h hab.2)
  | gt => rw [horder] at hab; cases hab.1

/-- Records that are left out before arranging may as well be left out afterwards. -/
theorem arrange_filter (h : ∃ c ∈ s.columns, c.key = .reference)
    (hdistinct : (records.map StoredRecord.reference).Nodup) (p : StoredRecord → Bool) :
    s.arrange (records.filter p) = (s.arrange records).filter p := by
  have hkept : ((records.filter p).map StoredRecord.reference).Nodup :=
    hdistinct.sublist (List.filter_sublist.map _)
  refine List.Perm.eq_of_pairwise (fun a b _ _ hab hba => ?_) (arrange_ascending h hkept)
    ((arrange_ascending h hdistinct).filter p) ?_
  · -- No two records stand before each other.
    rw [s.order_swap, hba] at hab
    cases hab
  · exact (s.arrange_perm _).trans ((s.arrange_perm records).filter p).symm

end SortOrder

/-! ## A total preorder -/

/-- There is no value at a path of the payload, or it is null. -/
def StoredRecord.Lacks (r : StoredRecord) (path : String) : Prop :=
  r.field path = none ∨ r.field path = some .null

/-- Such a value is not read, and every other is. -/
theorem FieldPath.read_payload_eq_none_iff {r : StoredRecord} {path : String} :
    (FieldPath.payload path).read r = none ↔ r.Lacks path := by
  rw [read, StoredRecord.Lacks]
  cases r.field path with
  | none => simp
  | some j => cases j <;> simp [Scalar.ofPayload]

namespace SortOrder

variable {s : SortOrder} {path : String} {rest : List SortColumn} {a b : StoredRecord}

/-- Records that both lack a value are left to the columns after it. -/
theorem order_of_lacks_both (hs : s.columns = ⟨.field path, .ascending⟩ :: rest)
    (ha : a.Lacks path) (hb : b.Lacks path) : s.order a b = order ⟨rest⟩ a b := by
  obtain ⟨columns⟩ := s
  obtain rfl : columns = _ := hs
  rw [order_cons, compareLex, SortKey.order, FieldPath.read_payload_eq_none_iff.2 ha,
    FieldPath.read_payload_eq_none_iff.2 hb]
  rfl

/-- A record that lacks a value comes before those that have one. -/
theorem order_of_lacks (hs : s.columns = ⟨.field path, .ascending⟩ :: rest)
    (ha : a.Lacks path) (hb : ¬ b.Lacks path) : s.order a b = .lt := by
  obtain ⟨columns⟩ := s
  obtain rfl : columns = _ := hs
  obtain ⟨v, hv⟩ := Option.ne_none_iff_exists'.1 (mt FieldPath.read_payload_eq_none_iff.1 hb)
  rw [order_cons, compareLex, SortKey.order, FieldPath.read_payload_eq_none_iff.2 ha, hv]
  rfl

end SortOrder

namespace Scalar

variable {a b : Scalar}

theorem sortCompare_of_rank_lt (h : a.rank < b.rank) : a.sortCompare b = .lt := by
  rw [sortCompare, Nat.compare_eq_lt.2 h]
  rfl

/-- What is no number comes after all numbers. -/
theorem sortCompare_of_isNaN (hrank : a.rank = b.rank) (ha : a.isNaN = false)
    (hb : b.isNaN = true) : a.sortCompare b = .lt := by
  rw [sortCompare, compare?_of_rank_eq hrank, hrank, compare_self, ha, hb]
  rfl

end Scalar

/-- Sorting goes by a total preorder. Scalars of all kinds are in one, truth values before numbers
    before texts, and what is no number after all other numbers. So are records, for columns of any
    kind and direction: those that lack a value at a path are not told apart by it, and come before
    those that have one if it ascends. Columns with the reference among them put one before the
    other of any two records with different references, so that records of a store are in a strict
    total order. -/
theorem sorts_by_total_preorder :
    (∀ a : Scalar, a.sortCompare a = .eq) ∧
    (∀ a b : Scalar, b.sortCompare a = (a.sortCompare b).swap) ∧
    (∀ a b c : Scalar, (a.sortCompare b).isLE = true → (b.sortCompare c).isLE = true →
      (a.sortCompare c).isLE = true) ∧
    (∀ a b : Scalar, a.rank < b.rank → a.sortCompare b = .lt) ∧
    (∀ (a : Scalar) (x : Binary64), a.rank = (Scalar.float x).rank → a.isNaN = false →
      x.isNaN = true → a.sortCompare (.float x) = .lt) ∧
    ∀ s : SortOrder,
      (∀ a, s.order a a = .eq) ∧
      (∀ a b, s.order b a = (s.order a b).swap) ∧
      (∀ a b c, (s.order a b).isLE = true → (s.order b c).isLE = true →
        (s.order a c).isLE = true) ∧
      (∀ path rest a b, s.columns = ⟨.field path, .ascending⟩ :: rest → a.Lacks path →
        (b.Lacks path → s.order a b = SortOrder.order ⟨rest⟩ a b) ∧
          (¬ b.Lacks path → s.order a b = .lt)) ∧
      (∀ a b c, s.order a b = .lt → s.order b c = .lt → s.order a c = .lt) ∧
      ((∃ c ∈ s.columns, c.key = .reference) → ∀ a b : StoredRecord,
        a.reference ≠ b.reference → s.order a b = .lt ∨ s.order b a = .lt) := by
  refine ⟨fun a => ReflCmp.compare_self, fun a b => OrientedCmp.eq_swap,
    fun a b c => TransCmp.isLE_trans, fun a b => Scalar.sortCompare_of_rank_lt,
    fun a x => Scalar.sortCompare_of_isNaN, fun s => ?_⟩
  have hs := s.transCmp_order
  refine ⟨fun a => ReflCmp.compare_self, fun a b => s.order_swap b a, s.isLE_trans,
    fun path rest a b hcolumns ha => ⟨SortOrder.order_of_lacks_both hcolumns ha,
      SortOrder.order_of_lacks hcolumns ha⟩, fun a b c => TransCmp.lt_trans,
    fun hreference a b hne => ?_⟩
  rw [s.order_swap b a]
  cases horder : s.order a b with
  | lt => exact .inl rfl
  | eq => exact absurd horder (SortOrder.order_ne_eq hreference hne)
  | gt => exact .inr rfl

/-- A record with a payload. -/
def holding (number : Nat) (payload : Json) : StoredRecord where
  reference := ⟨.ofNumber number, 0⟩
  back := none
  lineage := [.any]
  payload := payload
  participants := []
  linearId := none
  relevant := true
  status := .unconsumed
  recordedAt := .epoch
  consumedAt := none

/-- An integer between two doubles that are next to each other; and records of which one lacks the
    value that they are sorted by. -/
theorem sorts_by_total_preorder_betweenDoubles :
    let below : Scalar := .float ⟨0x4340000000000000⟩
    let between : Scalar := .int 9007199254740993
    let above : Scalar := .float ⟨0x4340000000000001⟩
    let s : SortOrder := ⟨[⟨.field "amount", .ascending⟩, ⟨.reference, .descending⟩]⟩
    let lacking := holding 1 (.object [("amount", .null)])
    let first := holding 2 (.object [("amount", .integer 3)])
    let second := holding 3 (.object [("amount", .integer 3)])
    (below.sortCompare between).isLE = true ∧ (between.sortCompare above).isLE = true ∧
      (below.sortCompare above).isLE = true ∧
      between.sortCompare (.text "") = .lt ∧ above.sortCompare (.float .nan) = .lt ∧
      s.order lacking second = .lt ∧ s.order second first = .lt ∧ s.order lacking first = .lt ∧
      (s.order first second = .lt ∨ s.order second first = .lt) := by
  intro below between above s lacking first second
  obtain ⟨-, -, htrans, hrank, hnan, hcolumns⟩ := sorts_by_total_preorder
  obtain ⟨-, -, -, hlacks, hchain, hreference⟩ := hcolumns s
  have hlower : (below.sortCompare between).isLE = true := by decide
  have hupper : (between.sortCompare above).isLE = true := by decide
  have hlacking : lacking.Lacks "amount" := .inr rfl
  have hsecond : ¬ second.Lacks "amount" := fun h => h.elim nofun nofun
  have hbefore : s.order lacking second = .lt := (hlacks _ _ _ _ rfl hlacking).2 hsecond
  have hdescending : s.order second first = .lt := by decide +kernel
  refine ⟨hlower, hupper, htrans _ _ _ hlower hupper, hrank _ _ (by decide),
    hnan _ _ rfl (by decide) (by decide), hbefore, hdescending, hchain _ _ _ hbefore hdescending,
    hreference ⟨⟨.reference, .descending⟩, by decide, rfl⟩ _ _ (by decide +kernel)⟩

end LedgerQuery
