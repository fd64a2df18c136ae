/-
  LedgerQuery.Proofs.Record.Chain

  What the check of a chain accepts (`verify_eq_ok_iff`): a first version without a predecessor,
  each later one naming the one in front of it, and none naming itself. Of anything else it tells
  the first thing that breaks the chain (`Broken`). Main statement: `verify_tells_first_fault`.
-/
import LedgerQuery.Record.Chain
import Mathlib.Data.List.Chain
import Mathlib.Order.Nat

namespace LedgerQuery

/-- A version names another one as the version it evolved from. -/
def Link.Succeeds (earlier later : Link) : Prop := later.back = some earlier.reference

namespace Chain

variable {links rest : List Link} {first earlier l : Link} {fault : ChainFault}

/-! ## Versions that name themselves -/

/-- The version at a place names itself. -/
def NamesItself (links : List Link) (i : Nat) : Prop :=
  ∃ l, links[i]? = some l ∧ l.back = some l.reference

theorem findIdx?_pointsToItself_eq_none_iff :
    links.findIdx? Link.pointsToItself = none ↔ ∀ l ∈ links, l.back ≠ some l.reference := by
  rw [List.findIdx?_eq_none_iff]
  exact forall₂_congr fun l _ => decide_eq_false_iff_not

theorem findIdx?_pointsToItself_eq_some_iff {i : Nat} :
    links.findIdx? Link.pointsToItself = some i ↔ IsLeast {j | NamesItself links j} i := by
  rw [List.findIdx?_eq_some_iff_getElem]
  constructor
  · rintro ⟨hlt, hself, hbefore⟩
    refine ⟨⟨_, List.getElem?_eq_getElem hlt, of_decide_eq_true hself⟩, ?_⟩
    rintro j ⟨l, hl, hj⟩
    obtain ⟨hjlt, rfl⟩ := List.getElem?_eq_some_iff.1 hl
    by_contra hnot
    exact hbefore j (by omega) (decide_eq_true hj)
  · rintro ⟨⟨l, hl, hself⟩, hleast⟩
    obtain ⟨hlt, rfl⟩ := List.getElem?_eq_some_iff.1 hl
    refine ⟨hlt, decide_eq_true hself, fun j hj hpoints => ?_⟩
    have hbefore : NamesItself links j :=
      ⟨_, List.getElem?_eq_getElem (by omega), of_decide_eq_true hpoints⟩
    exact absurd (hleast hbefore) (by omega)

theorem verify_of_isLeast {i : Nat} (h : IsLeast {j | NamesItself links j} i) :
    verify links = .error (.selfReference i) := by
  unfold verify
  rw [findIdx?_pointsToItself_eq_some_iff.2 h]

/-- Where no version names itself, the first one is looked at, and then those after it. -/
theorem verify_cons_of_plain (h : ∀ l ∈ first :: rest, l.back ≠ some l.reference) :
    verify (first :: rest) =
      if first.back.isSome then .error .genesisHasPredecessor
      else verifyAfter first.reference 1 rest := by
  unfold verify
  rw [findIdx?_pointsToItself_eq_none_iff.2 h]

/-! ## Chains -/

/-- What is accepted after a predecessor: the first version names it, and each later one the one
    in front of it. -/
theorem verifyAfter_eq_ok_iff {predecessor : RecordRef} {index : Nat} {links : List Link} :
    verifyAfter predecessor index links = .ok () ↔
      (∀ first ∈ links.head?, first.back = some predecessor) ∧ links.IsChain Link.Succeeds := by
  induction links generalizing predecessor index with
  | nil => simp [verifyAfter]
  | cons l rest ih =>
    rw [verifyAfter, List.isChain_cons]
    cases hback : l.back with
    | none => simp [hback]
    | some back =>
      by_cases hsame : back = predecessor
      · simp [hback, hsame, ih, Link.Succeeds]
      · simp [hback, hsame]

/-- A list of versions is accepted if none names itself, the first names none, and each later one
    names the one in front of it. -/
theorem verify_eq_ok_iff {links : List Link} :
    verify links = .ok () ↔
      (∀ l ∈ links, l.back ≠ some l.reference) ∧
        (∀ first ∈ links.head?, first.back = none) ∧ links.IsChain Link.Succeeds := by
  cases hself : links.findIdx? Link.pointsToItself with
  | some index =>
    -- Some version names itself, which is the fault that is reported.
    rw [verify_of_isLeast (findIdx?_pointsToItself_eq_some_iff.1 hself)]
    simp only [reduceCtorEq, false_iff]
    rintro ⟨hplain, -⟩
    rw [findIdx?_pointsToItself_eq_none_iff.2 hplain] at hself
    cases hself
  | none =>
    have hplain := findIdx?_pointsToItself_eq_none_iff.1 hself
    cases links with
    | nil => simp [verify]
    | cons first rest =>
      rw [verify_cons_of_plain hplain, List.isChain_cons]
      cases hback : first.back with
      | some back => simp [hback]
      | none =>
        rw [Option.isSome_none, if_neg Bool.false_ne_true, verifyAfter_eq_ok_iff]
        simp only [List.head?_cons, Option.mem_some_iff, forall_eq', hback, true_and]
        exact ⟨fun h => ⟨hplain, h⟩, fun h => h.2⟩

/-- A version that names the last of a chain, and not itself, makes the chain longer. -/
theorem verify_append_singleton {links : List Link} {l : Link} (h : verify links = .ok ())
    (hself : l.back ≠ some l.reference) (hlast : l.back = links.getLast?.map Link.reference) :
    verify (links ++ [l]) = .ok () := by
  rw [verify_eq_ok_iff] at h ⊢
  obtain ⟨hnone, hfirst, hchain⟩ := h
  refine ⟨fun k hk => ?_, ?_, List.isChain_append.2 ⟨hchain, List.isChain_singleton l, ?_⟩⟩
  · rcases List.mem_append.1 hk with hold | hnew
    · exact hnone k hold
    · rw [List.mem_singleton.1 hnew]
      exact hself
  · cases links with
    | nil =>
      intro first hmem
      cases hmem
      exact hlast
    | cons first rest => exact hfirst
  · intro before hbefore after hafter
    cases hafter
    rw [Link.Succeeds, hlast, hbefore]
    rfl

/-! ## Versions that do not name the one in front of them -/

/-- The version at a place does not name the one in front of it. No version is in front of the
    first. -/
def Unlinked (links : List Link) : Nat → Prop
  | 0 => False
  | i + 1 => ∃ earlier later,
    links[i]? = some earlier ∧ links[i + 1]? = some later ∧ ¬ earlier.Succeeds later

theorem Unlinked.exists_link {i : Nat} (h : Unlinked links i) : ∃ l, links[i]? = some l := by
  cases i with
  | zero => exact h.elim
  | succ i =>
    obtain ⟨-, later, -, hlater, -⟩ := h
    exact ⟨later, hlater⟩

/-- Behind a version that names the one in front of it, the places move up by one. -/
theorem unlinked_cons_iff (h : earlier.Succeeds l) (i : Nat) :
    Unlinked (earlier :: l :: rest) (i + 1) ↔ Unlinked (l :: rest) i := by
  cases i with
  | zero => simpa [Unlinked] using h
  | succ i => exact Iff.rfl

/-- Versions that each name the one in front of them are those of which none is unlinked. -/
theorem isChain_iff_forall_not_unlinked :
    links.IsChain Link.Succeeds ↔ ∀ i, ¬ Unlinked links i := by
  rw [List.isChain_iff_getElem]
  constructor
  · rintro h (_ | i) hi
    · exact hi
    · obtain ⟨earlier, later, hearlier, hlater, hnot⟩ := hi
      obtain ⟨hlt, rfl⟩ := List.getElem?_eq_some_iff.1 hlater
      obtain ⟨_, rfl⟩ := List.getElem?_eq_some_iff.1 hearlier
      exact hnot (h i hlt)
  · intro h i hlt
    by_contra hnot
    exact h (i + 1) ⟨_, _, List.getElem?_eq_getElem (by omega), List.getElem?_eq_getElem hlt, hnot⟩

/-- What is told of a version that does not name the one in front of it. -/
def faultAt (l : Link) (index : Nat) : ChainFault :=
  match l.back with
  | none => .missingPredecessor index
  | some _ => .brokenLink index

theorem verifyAfter_of_succeeds (h : earlier.Succeeds l) (index : Nat) :
    verifyAfter earlier.reference index (l :: rest) = verifyAfter l.reference (index + 1) rest := by
  rw [verifyAfter, h]
  exact if_pos rfl

theorem verifyAfter_of_not_succeeds (h : ¬ earlier.Succeeds l) (index : Nat) :
    verifyAfter earlier.reference index (l :: rest) = .error (faultAt l index) := by
  rw [verifyAfter, faultAt]
  cases hback : l.back with
  | none => rfl
  | some back => exact if_neg fun hsame => h (hback.trans (congrArg some hsame))

/-- The check of the versions after one tells of the first that is unlinked. -/
theorem verifyAfter_of_isLeast {i : Nat} (base : Nat)
    (hleast : IsLeast {j | Unlinked (earlier :: rest) j} i)
    (hfound : (earlier :: rest)[i]? = some l) :
    verifyAfter earlier.reference (base + 1) rest = .error (faultAt l (base + i)) := by
  induction rest generalizing earlier base i with
  | nil =>
    obtain _ | i := i
    · exact hleast.1.elim
    · obtain ⟨-, later, -, hlater, -⟩ := hleast.1
      cases hlater
  | cons next rest ih =>
    obtain _ | i := i
    · exact hleast.1.elim
    · by_cases hnext : earlier.Succeeds next
      · have hrest : IsLeast {j | Unlinked (next :: rest) j} i :=
          ⟨(unlinked_cons_iff hnext i).1 hleast.1, fun j hj =>
            Nat.le_of_succ_le_succ (hleast.2 ((unlinked_cons_iff hnext j).2 hj))⟩
        have hplace : base + 1 + i = base + (i + 1) := by omega
        rw [verifyAfter_of_succeeds hnext, ih (base + 1) hrest hfound, hplace]
      · -- The very next version is unlinked, and none can be before it.
        have hone : i + 1 ≤ 1 := hleast.2 ⟨earlier, next, rfl, rfl, hnext⟩
        obtain rfl : i = 0 := by omega
        cases hfound
        exact verifyAfter_of_not_succeeds hnext (base + 1)

/-- Where no version names itself and the first has no predecessor, the check tells of the first
    version that is unlinked. -/
theorem verify_of_isLeast_unlinked {i : Nat} (hplain : ∀ l ∈ links, l.back ≠ some l.reference)
    (hrooted : ∀ first ∈ links.head?, first.back = none)
    (hleast : IsLeast {j | Unlinked links j} i) (hfound : links[i]? = some l) :
    verify links = .error (faultAt l i) := by
  cases links with
  | nil => cases hfound
  | cons first rest =>
    rw [verify_cons_of_plain hplain, hrooted first rfl, Option.isSome_none,
      if_neg Bool.false_ne_true, verifyAfter_of_isLeast 0 hleast hfound, Nat.zero_add]

/-! ## What breaks a chain -/

/-- What is told of versions that are no chain. A version that names itself comes before anything
    else, wherever it stands; then a first version that has a predecessor; then the first of the
    later ones that does not name the one in front of it, because it names none or another. -/
inductive Broken (links : List Link) : ChainFault → Prop where
  | selfReference {i : Nat} (least : IsLeast {j | NamesItself links j} i) :
    Broken links (.selfReference i)
  | genesis {first : Link} (plain : ∀ l ∈ links, l.back ≠ some l.reference)
    (head : links.head? = some first) (names : first.back ≠ none) :
    Broken links .genesisHasPredecessor
  | missing {i : Nat} {l : Link} (plain : ∀ l ∈ links, l.back ≠ some l.reference)
    (rooted : ∀ first ∈ links.head?, first.back = none)
    (least : IsLeast {j | Unlinked links j} i) (found : links[i]? = some l)
    (absent : l.back = none) : Broken links (.missingPredecessor i)
  | other {i : Nat} {l : Link} {back : RecordRef} (plain : ∀ l ∈ links, l.back ≠ some l.reference)
    (rooted : ∀ first ∈ links.head?, first.back = none)
    (least : IsLeast {j | Unlinked links j} i) (found : links[i]? = some l)
    (names : l.back = some back) : Broken links (.brokenLink i)

/-- What breaks a chain is told. -/
theorem Broken.verify (h : Broken links fault) : verify links = .error fault := by
  cases h with
  | selfReference hleast => exact verify_of_isLeast hleast
  | genesis hplain hhead hnames =>
    obtain ⟨rest, rfl⟩ := List.head?_eq_some_iff.1 hhead
    rw [verify_cons_of_plain hplain]
    exact if_pos (Option.isSome_iff_ne_none.2 hnames)
  | missing hplain hrooted hleast hfound habsent =>
    rw [verify_of_isLeast_unlinked hplain hrooted hleast hfound, faultAt, habsent]
  | other hplain hrooted hleast hfound hnames =>
    rw [verify_of_isLeast_unlinked hplain hrooted hleast hfound, faultAt, hnames]

/-- Versions are a chain, or broken by something. -/
theorem verify_ok_or_broken (links : List Link) :
    verify links = .ok () ∨ ∃ fault, Broken links fault := by
  classical
  cases hself : links.findIdx? Link.pointsToItself with
  | some i => exact .inr ⟨_, .selfReference (findIdx?_pointsToItself_eq_some_iff.1 hself)⟩
  | none =>
    have hplain := findIdx?_pointsToItself_eq_none_iff.1 hself
    by_cases hrooted : ∀ first ∈ links.head?, first.back = none
    · by_cases hlinked : ∃ i, Unlinked links i
      · have hleast := Nat.isLeast_find hlinked
        obtain ⟨l, hfound⟩ := Unlinked.exists_link hleast.1
        cases hback : l.back with
        | none => exact .inr ⟨_, .missing hplain hrooted hleast hfound hback⟩
        | some back => exact .inr ⟨_, .other hplain hrooted hleast hfound hback⟩
      · exact .inl (verify_eq_ok_iff.2
          ⟨hplain, hrooted, isChain_iff_forall_not_unlinked.2 (not_exists.1 hlinked)⟩)
    · obtain ⟨first, hhead, hnames⟩ := not_forall₂.1 hrooted
      exact .inr ⟨_, .genesis hplain hhead hnames⟩

/-- The check of a chain is exact. It accepts no versions at all, and versions of which the first
    has no predecessor, each later one names the one in front of it and none names itself. Of any
    others it tells what breaks them. -/
theorem verify_tells_first_fault (links : List Link) :
    (verify links = .ok () ↔
      links = [] ∨ ((∃ first, links.head? = some first ∧ first.back = none) ∧
        links.IsChain Link.Succeeds ∧ ∀ l ∈ links, l.back ≠ some l.reference)) ∧
    ∀ fault, verify links = .error fault ↔ Broken links fault := by
  refine ⟨?_, fun fault => ⟨fun h => ?_, Broken.verify⟩⟩
  · rw [verify_eq_ok_iff]
    cases links with
    | nil => simp
    | cons first rest =>
      simp only [List.head?_cons, Option.mem_some_iff, forall_eq', reduceCtorEq, false_or,
        Option.some.injEq, exists_eq_left']
      exact ⟨fun ⟨hplain, hrooted, hchain⟩ => ⟨hrooted, hchain, hplain⟩,
        fun ⟨hrooted, hchain, hplain⟩ => ⟨hplain, hrooted, hchain⟩⟩
  · rcases verify_ok_or_broken links with hok | ⟨other, hbroken⟩
    · cases hok.symm.trans h
    · cases hbroken.verify.symm.trans h
      exact hbroken

/-- A version that names itself is told of, although the first one has a predecessor and the second
    one has none. -/
example :
    let place (index : UInt32) : RecordRef := ⟨⟨List.replicate 32 1, by decide⟩, index⟩
    verify [⟨place 0, some (place 3)⟩, ⟨place 1, none⟩, ⟨place 2, some (place 2)⟩] =
      .error (.selfReference 2) := by
  decide

end Chain

end LedgerQuery
