/-
  LedgerQuery.Proofs.Query.Comparison

  Numbers are compared by their exact values, integers with doubles as well as with their like and
  whatever their size (`Scalar.compare?_of_number?`). So comparisons fit together along any chain
  of numbers, also where an integer stands between doubles that are further apart than one; and the
  part of a double before the point is a 64-bit integer wherever it is compared with one
  (`Binary64.exists_whole`). Main statement: `numbers_compare_exactly`.
-/
import LedgerQuery.Proofs.Number.Exact
import LedgerQuery.Proofs.Query.Sorting

namespace LedgerQuery

/-! ## Whole parts -/

/-- The part before the point is on the same side of a whole number as the value. -/
theorem le_whole {q : ℚ} {n : Int} (h : (n : ℚ) ≤ q) : n ≤ if 0 ≤ q then ⌊q⌋ else ⌈q⌉ := by
  split
  · exact Int.le_floor.2 h
  · exact Int.cast_le.1 (h.trans (Int.le_ceil q))

theorem whole_lt {q : ℚ} {n : Int} (hn : 0 < n) (h : q < n) :
    (if 0 ≤ q then ⌊q⌋ else ⌈q⌉) < n := by
  split
  · exact Int.floor_lt.2 h
  · rename_i hnegative
    exact Int.lt_of_le_of_lt (Int.ceil_le.2 (by exact_mod_cast (not_le.1 hnegative).le)) hn

/-- Where the comparison with an integer looks at the whole part, the value lies in the range of
    64-bit integers, and its whole part is one of them. -/
theorem Binary64.exists_whole {x : Binary64} (hx : x.isNaN = false)
    (hhigh : ¬ ((unitsPerOne <<< 63 : Nat) : Int) ≤ x.units)
    (hlow : ¬ x.units < -((unitsPerOne <<< 63 : Nat) : Int)) :
    ∃ (q : ℚ) (k : Int64), x.extended? = some (q : Extended) ∧ (-2 ^ 63 ≤ q ∧ q < 2 ^ 63) ∧
      x.truncate = (if 0 ≤ q then ⌊q⌋ else ⌈q⌉) ∧ k.toInt = x.truncate := by
  obtain ⟨hexact, hbounded⟩ := extended?_eq_ofUnits hx
  have hlimit : ((unitsPerOne <<< 63 : Nat) : Int) = 2 ^ 63 * unitsPerOne := by
    rw [Nat.shiftLeft_eq, Int.natCast_mul, Int.mul_comm]
    rfl
  rw [hlimit] at hhigh hlow
  have hbelow : ¬ (((2 ^ 63 : Int) : ℚ) : Extended) ≤ ofUnits x.units :=
    mt (mul_le_units_iff (by decide) hbounded).2 hhigh
  have habove : (((-2 ^ 63 : Int) : ℚ) : Extended) ≤ ofUnits x.units :=
    (mul_le_units_iff (by decide) hbounded).1 (by omega)
  have hinside := natAbs_mul_lt (n := 2 ^ 63) (by decide)
  rw [ofUnits_finite (by omega) (by omega)] at hexact hbelow habove
  have hrange : -2 ^ 63 ≤ (x.units / unitsPerOne : ℚ) ∧ (x.units / unitsPerOne : ℚ) < 2 ^ 63 := by
    rw [WithBotTop.coe_le_coe] at hbelow habove
    constructor
    · exact_mod_cast habove
    · exact_mod_cast not_le.1 hbelow
  have hwhole := tdiv_unitsPerOne x.units
  -- From here on only the exact value matters, and not what it is a quotient of.
  generalize (x.units / unitsPerOne : ℚ) = q at hexact hrange hwhole
  have hfits : -2 ^ 63 ≤ x.truncate ∧ x.truncate < 2 ^ 63 := by
    rw [truncate, hwhole]
    exact ⟨le_whole (by exact_mod_cast hrange.1), whole_lt (by decide) (by exact_mod_cast hrange.2)⟩
  exact ⟨q, Int64.ofInt x.truncate, hexact, hrange, hwhole, Int64.toInt_ofInt_of_le hfits.1 hfits.2⟩

/-! ## Comparing numbers -/

namespace Scalar

variable {s t u : Scalar} {p q r : Extended}

/-- The exact value of a scalar, if it is a number. -/
def number? : Scalar → Option Extended
  | .int n => some ((n.toInt : ℚ) : Extended)
  | .float x => x.extended?
  | .bool _ | .text _ => none

/-- What a number counts is at most what an infinity counts, and stands for its exact value. -/
theorem number?_eq_ofUnits (h : s.number? = some p) :
    (s.rank = 1 ∧ s.isNaN = false ∧ s.text? = none) ∧
      p = Binary64.ofUnits s.value ∧ s.value.natAbs ≤ Binary64.infinityUnits := by
  cases s with
  | int n =>
    have hlow := n.le_toInt
    have hhigh := n.toInt_lt
    have hsize : n.toInt.natAbs ≤ 2 ^ 63 := by omega
    cases h
    exact ⟨⟨rfl, rfl, rfl⟩, (Binary64.ofUnits_mul hsize).symm,
      Nat.le_of_lt (Binary64.natAbs_mul_lt hsize)⟩
  | float x =>
    have hx : x.isNaN = false := by
      rw [Bool.eq_false_iff]
      intro hnan
      rw [number?, Binary64.extended?_eq_none_iff.2 hnan] at h
      cases h
    obtain ⟨hexact, hbounded⟩ := Binary64.extended?_eq_ofUnits hx
    rw [number?, hexact] at h
    cases h
    have hvalue : value (.float x) = x.units := by
      rw [value, if_neg (Bool.eq_false_iff.1 hx)]
    rw [hvalue]
    exact ⟨⟨rfl, hx, rfl⟩, rfl, hbounded⟩
  | bool _ | text _ => cases h

/-- Only texts look at the case. -/
theorem compare?_of_rank (hs : s.rank = 1) (ignoreCase : Bool) :
    compare? ignoreCase s t = compare? false s t := by
  cases s with
  | int _ | float _ => cases t <;> rfl
  | bool _ | text _ => cases hs

/-- Two numbers are compared by their exact values. -/
theorem compare?_of_number? (ignoreCase : Bool) (hs : s.number? = some p)
    (ht : t.number? = some q) : compare? ignoreCase s t = some (compare p q) := by
  obtain ⟨⟨hrank, hnumber, htext⟩, rfl, hbounded⟩ := number?_eq_ofUnits hs
  obtain ⟨⟨hrank', hnumber', htext'⟩, rfl, hbounded'⟩ := number?_eq_ofUnits ht
  rw [compare?_of_rank hrank, compare?_of_rank_eq (hrank.trans hrank'.symm), hnumber, hnumber',
    htext, htext', Binary64.compare_ofUnits hbounded hbounded']
  exact congrArg some Ordering.then_eq

/-- Two comparisons along a chain that does not turn back make up the comparison of its ends. -/
theorem compare_along (p q r : Extended) :
    ((compare p q).isLE = true → (compare q r).isLE = true →
        compare p r = (compare p q).then (compare q r)) ∧
      ((compare p q).isGE = true → (compare q r).isGE = true →
        compare p r = (compare p q).then (compare q r)) := by
  rcases lt_trichotomy p q with hpq | rfl | hpq
  · rw [compare_lt_iff_lt.2 hpq]
    refine ⟨fun _ hqr => ?_, nofun⟩
    have hle : q ≤ r := compare_le_iff_le.1 (Ordering.isLE_iff_ne_gt.1 hqr)
    exact compare_lt_iff_lt.2 (hpq.trans_le hle)
  · rw [compare_eq_iff_eq.2 rfl]
    exact ⟨fun _ _ => rfl, fun _ _ => rfl⟩
  · rw [compare_gt_iff_gt.2 hpq]
    refine ⟨nofun, fun _ hqr => ?_⟩
    have hge : q ≥ r := compare_ge_iff_ge.1 (Ordering.isGE_iff_ne_lt.1 hqr)
    exact compare_gt_iff_gt.2 (hge.trans_lt hpq)

/-- Comparing numbers is exact. An integer and a double are ordered as the integer and the exact
    value of the double are, which fails exactly for what is no number, and the other way round in
    reverse. The whole part of the double that is looked at on the way is a 64-bit integer. And
    along a chain of numbers that does not turn back the first comparison that is not an equality
    decides that of the ends. -/
theorem numbers_compare_exactly (ignoreCase : Bool) :
    (∀ (n : Int64) (x : Binary64),
      compare? ignoreCase (.int n) (.float x) =
          x.extended?.map (compare ((n.toInt : ℚ) : Extended)) ∧
        (compare? ignoreCase (.int n) (.float x) = none ↔ x.isNaN = true) ∧
        compare? ignoreCase (.float x) (.int n) =
          (compare? ignoreCase (.int n) (.float x)).map Ordering.swap) ∧
    (∀ x : Binary64, x.isNaN = false →
      ¬ ((Binary64.unitsPerOne <<< 63 : Nat) : Int) ≤ x.units →
      ¬ x.units < -((Binary64.unitsPerOne <<< 63 : Nat) : Int) →
      ∃ (q : ℚ) (k : Int64), x.extended? = some (q : Extended) ∧ (-2 ^ 63 ≤ q ∧ q < 2 ^ 63) ∧
        x.truncate = (if 0 ≤ q then ⌊q⌋ else ⌈q⌉) ∧ k.toInt = x.truncate) ∧
    ∀ s t u : Scalar, s.number?.isSome = true → t.number?.isSome = true → u.number?.isSome = true →
      ∃ first second, compare? ignoreCase s t = some first ∧ compare? ignoreCase t u = some second ∧
        (first.isLE = true → second.isLE = true →
          compare? ignoreCase s u = some (first.then second)) ∧
        (first.isGE = true → second.isGE = true →
          compare? ignoreCase s u = some (first.then second)) := by
  refine ⟨fun n x => ?_, fun x => Binary64.exists_whole, fun s t u hs ht hu => ?_⟩
  · have hexact : compare? ignoreCase (.int n) (.float x) =
        x.extended?.map (compare ((n.toInt : ℚ) : Extended)) := by
      cases hx : x.extended? with
      | none => exact Binary64.compareInt?_eq_none n.toInt (Binary64.extended?_eq_none_iff.1 hx)
      | some v => exact compare?_of_number? ignoreCase (s := .int n) (t := .float x) rfl hx
    refine ⟨hexact, ?_, rfl⟩
    rw [hexact, Option.map_eq_none_iff, Binary64.extended?_eq_none_iff]
  · obtain ⟨p, hp⟩ := Option.isSome_iff_exists.1 hs
    obtain ⟨q, hq⟩ := Option.isSome_iff_exists.1 ht
    obtain ⟨r, hr⟩ := Option.isSome_iff_exists.1 hu
    obtain ⟨hup, hdown⟩ := compare_along p q r
    rw [compare?_of_number? ignoreCase hp hq, compare?_of_number? ignoreCase hq hr,
      compare?_of_number? ignoreCase hp hr]
    exact ⟨_, _, rfl, rfl, fun h h' => congrArg some (hup h h'),
      fun h h' => congrArg some (hdown h h')⟩

/-- The integer between two doubles that are two apart, and the double at the lower end of the
    64-bit integers. -/
theorem numbers_compare_exactly_betweenDoubles :
    let below : Scalar := .float ⟨0x4340000000000000⟩
    let between : Scalar := .int 9007199254740993
    let above : Scalar := .float ⟨0x4340000000000001⟩
    let lowest : Binary64 := ⟨0xC3E0000000000000⟩
    compare? false below between = some .lt ∧ compare? false between above = some .lt ∧
      compare? false below above = some .lt ∧
      ∃ k : Int64, k.toInt = lowest.truncate ∧ lowest.truncate = -2 ^ 63 := by
  intro below between above lowest
  obtain ⟨-, hcasts, hchains⟩ := numbers_compare_exactly false
  obtain ⟨first, second, hfirst, hsecond, hupwards, -⟩ := hchains below between above rfl rfl rfl
  have hless : compare? false below between = some .lt := by decide
  have hmore : compare? false between above = some .lt := by decide
  obtain rfl : first = .lt := Option.some.inj (hfirst.symm.trans hless)
  obtain rfl : second = .lt := Option.some.inj (hsecond.symm.trans hmore)
  obtain ⟨-, k, -, -, -, hk⟩ := hcasts lowest (by decide) (by decide) (by decide)
  exact ⟨hless, hmore, hupwards rfl rfl, k, hk, by decide⟩

end Scalar

end LedgerQuery
