/-
  LedgerQuery.Proofs.Time.Rfc3339

  An instant written as RFC 3339 text is read back. The writer puts no blanks and full fields, so
  of all that the reader takes only one way through each of its parts is used.
-/
import LedgerQuery.Proofs.Text.Digits
import LedgerQuery.Time.Rfc3339

namespace LedgerQuery

/-! ## Blanks -/

namespace Blank

theorem isBlank_of_isDigit {c : Char} (h : c.isDigit = true) : isBlank c = false := by
  have ⟨hlow, hhigh⟩ := Char.isDigit_iff_toNat.1 h
  change 48 ≤ c.toNat at hlow
  change c.toNat ≤ 57 at hhigh
  have hvalue : c.toNat - 48 + 48 = c.toNat := by omega
  have hall : ∀ k ∈ List.range 10, isBlank (Char.ofNat (k + 48)) = false := by decide
  have := hall (c.toNat - 48) (List.mem_range.2 (by omega))
  rwa [hvalue, Char.ofNat_toNat] at this

theorem trimStart_cons {c : Char} (h : isBlank c = false) (cs : List Char) :
    trimStart (c :: cs) = c :: cs := by
  simp [trimStart, h]

/-- Text that starts with a digit has no blanks to be cut off. -/
theorem trimStart_digits {ds : List Char} (hnonempty : ds ≠ []) (hall : ∀ c ∈ ds, c.isDigit = true)
    (rest : List Char) : trimStart (ds ++ rest) = ds ++ rest := by
  cases ds with
  | nil => exact absurd rfl hnonempty
  | cons d ds => exact trimStart_cons (isBlank_of_isDigit (hall d List.mem_cons_self)) _

end Blank

namespace Rfc3339

/-! ## Runs of digits -/

/-- A run of digits is read up to its end if the reader takes no more, or if no digit follows. -/
theorem number_append {most : Nat} {ds rest : List Char} (hnonempty : ds ≠ [])
    (hall : ∀ c ∈ ds, c.isDigit = true) (hfits : ds.length ≤ most)
    (hended : ds.length = most ∨ ∃ c cs, rest = c :: cs ∧ c.isDigit = false) :
    number most (ds ++ rest) = some (Numeral.value ds, rest) := by
  -- Either the reader is at its limit behind the run, or it meets no digit there.
  have hafter : (rest.take (most - ds.length)).takeWhile Char.isDigit = [] := by
    rcases hended with hfull | ⟨c, cs, rfl, hstop⟩
    · simp [hfull]
    · cases most - ds.length <;> simp [hstop]
  have hrun : ((ds ++ rest).take most).takeWhile Char.isDigit = ds := by
    rw [List.take_append, List.take_of_length_le hfits, List.takeWhile_append_of_pos hall, hafter,
      List.append_nil]
  have hfound : ¬ ds.isEmpty = true := by simpa using hnonempty
  simp only [number, hrun]
  rw [if_neg hfound, List.drop_left]

theorem padded_ne_nil {width : Nat} (h : width ≠ 0) (n : Nat) : padded width n ≠ [] := by
  intro hempty
  have : (padded width n).length = 0 := by rw [hempty, List.length_nil]
  simp [padded, h] at this

theorem isDigit_of_mem_padded {width n : Nat} : ∀ c ∈ padded width n, c.isDigit = true :=
  fun _ => Numeral.isDigit_of_mem_places

theorem length_padded (width n : Nat) : (padded width n).length = width := by simp [padded]

theorem number_padded {width n : Nat} (hpositive : width ≠ 0) (h : n < Nat.pow 10 width)
    (rest : List Char) : number width (padded width n ++ rest) = some (n, rest) := by
  have hfull : (padded width n).length = width := length_padded width n
  rw [number_append (padded_ne_nil hpositive n) isDigit_of_mem_padded (Nat.le_of_eq hfull)
    (.inl hfull), padded,
    Numeral.value_places, Nat.mod_eq_of_lt h]

/-! ## The fields -/

theorem field_padded {n : Nat} (h : n < 100) (rest : List Char) :
    field (padded 2 n ++ rest) = some (n, rest) := by
  rw [field, Blank.trimStart_digits (padded_ne_nil (by decide) n) isDigit_of_mem_padded,
    number_padded (by decide) h]

theorem mark_cons {c : Char} (h : Blank.isBlank c = false) (rest : List Char) :
    mark c (c :: rest) = some rest := by
  simp [mark, Blank.trimStart_cons h]

theorem value_replicate_zero (count : Nat) (ds : List Char) :
    Numeral.value (List.replicate count '0' ++ ds) = Numeral.value ds := by
  simp only [Numeral.value_eq_ofDigitChars]
  rw [Nat.ofDigitChars_append, Nat.ofDigitChars_replicate_zero, Nat.mul_zero]

/-- A year that four digits do not hold is read up to the hyphen behind it. -/
theorem number_longYear (n : Nat) (rest : List Char) :
    let ds := List.replicate (4 - (Numeral.digits n).length) '0' ++ Numeral.digits n
    number (ds ++ '-' :: rest).length (ds ++ '-' :: rest) = some (n, '-' :: rest) := by
  intro ds
  have hnonempty : ds ≠ [] := by simp [ds, Numeral.digits_ne_nil]
  have hall : ∀ c ∈ ds, c.isDigit = true := by
    intro c hc
    rcases List.mem_append.1 hc with hzero | hdigit
    · rw [List.eq_of_mem_replicate hzero]
      rfl
    · exact Numeral.isDigit_of_mem_digits hdigit
  have hfits : ds.length ≤ (ds ++ '-' :: rest).length := by simp
  rw [number_append hnonempty hall hfits (.inr ⟨'-', rest, rfl, rfl⟩), value_replicate_zero,
    Numeral.value_digits]

theorem yearField_year (y : Int) (rest : List Char) :
    yearField (year y ++ '-' :: rest) = some (y, '-' :: rest) := by
  unfold year
  split
  · rename_i hshort
    have hsmall : y.toNat < Nat.pow 10 4 := by
      rw [show Nat.pow 10 4 = 10000 from rfl]
      omega
    have hvalue : (y.toNat : Int) = y := Int.toNat_of_nonneg hshort.1
    -- The text starts with a digit, so the reader looks for no sign.
    have hunsigned : ∀ c cs, padded 4 y.toNat ++ '-' :: rest = c :: cs → c.isDigit = true := by
      intro c cs h
      have hfirst : c ∈ padded 4 y.toNat := by
        simp only [padded, Numeral.places, List.nil_append, List.cons_append, List.map_cons,
          List.cons.injEq] at h ⊢
        simp [h.1]
      exact isDigit_of_mem_padded c hfirst
    rw [yearField, Blank.trimStart_digits (padded_ne_nil (by decide) _) isDigit_of_mem_padded]
    split
    · rename_i cs hminus
      exact absurd (hunsigned '-' cs hminus) (by decide)
    · rename_i cs hplus
      exact absurd (hunsigned '+' cs hplus) (by decide)
    · simp only [number_padded (by decide) hsmall, Option.map_some, hvalue]
  · by_cases hnegative : y < 0
    · have hvalue : -(y.natAbs : Int) = y := by omega
      simp only [yearField, if_pos hnegative, List.cons_append]
      rw [Blank.trimStart_cons (by decide)]
      simp only [number_longYear, Option.map_some, hvalue]
    · have hvalue : (y.natAbs : Int) = y := by omega
      simp only [yearField, if_neg hnegative, List.cons_append]
      rw [Blank.trimStart_cons (by decide)]
      simp only [number_longYear, Option.map_some, hvalue]

/-- The digits behind the point, which leave out thousandths that are zero. -/
theorem nanoField_point {width n : Nat} (hpositive : width ≠ 0) (hmost : width ≤ 9)
    (h : n < Nat.pow 10 width) :
    nanoField ('.' :: (padded width n ++ ['Z'])) = some (n * Nat.pow 10 (9 - width), ['Z']) := by
  have hfound : number 9 (padded width n ++ ['Z']) = some (n, ['Z']) := by
    have hfits : (padded width n).length ≤ 9 := by rwa [length_padded]
    rw [number_append (padded_ne_nil hpositive n) isDigit_of_mem_padded hfits
      (.inr ⟨'Z', [], rfl, by decide⟩), padded, Numeral.value_places, Nat.mod_eq_of_lt h]
  -- The reader finds the number of digits from the text that is left.
  have hbehind : (padded width n ++ ['Z']).length - ['Z'].length = width := by
    simp [length_padded]
  have hmark : ['Z'].dropWhile Char.isDigit = ['Z'] := by decide
  simp only [nanoField, hfound, Option.map_some, hbehind, hmark]

theorem nanoField_fraction {nano : Nat} (h : nano < 1000000000) :
    nanoField (fraction nano ++ ['Z']) = some (nano, ['Z']) := by
  unfold fraction
  split
  · rename_i hzero
    rw [hzero]
    rfl
  · split
    · rename_i hmillis
      have hsmall : nano / 1000000 < Nat.pow 10 3 := by
        rw [show Nat.pow 10 3 = 1000 from rfl]
        omega
      have hvalue : nano / 1000000 * Nat.pow 10 (9 - 3) = nano := by
        rw [show Nat.pow 10 (9 - 3) = 1000000 from rfl]
        omega
      rw [List.cons_append, nanoField_point (by decide) (by decide) hsmall, hvalue]
    · split
      · rename_i hmicros
        have hsmall : nano / 1000 < Nat.pow 10 6 := by
          rw [show Nat.pow 10 6 = 1000000 from rfl]
          omega
        have hvalue : nano / 1000 * Nat.pow 10 (9 - 6) = nano := by
          rw [show Nat.pow 10 (9 - 6) = 1000 from rfl]
          omega
        rw [List.cons_append, nanoField_point (by decide) (by decide) hsmall, hvalue]
      · have hvalue : nano * Nat.pow 10 (9 - 9) = nano := Nat.mul_one nano
        rw [List.cons_append, nanoField_point (by decide) (by decide) h, hvalue]

/-! ## Instants -/

/-- A clock that shows UTC shows the instant itself. -/
theorem ofLocal?_utc (t : Instant) :
    Instant.ofLocal? t.year t.month t.day t.hour t.minute t.second t.nano 0 = some t := by
  obtain ⟨-, -, -, hhour, hminute, -, -⟩ := t.civil
  have hnotBefore : ¬ (60 * (t.hour : Int) + t.minute - 0 < 0) := by omega
  have hnotAfter : 60 * (t.hour : Int) + t.minute - 0 < 1440 := by omega
  have htime : ((60 * (t.hour : Int) + t.minute - 0) % 1440).toNat = 60 * t.hour + t.minute := by
    omega
  have hhours : (60 * t.hour + t.minute) / 60 = t.hour := by omega
  have hminutes : (60 * t.hour + t.minute) % 60 = t.minute := by omega
  simp only [Instant.ofLocal?, if_pos t.civil, if_neg hnotBefore, if_pos hnotAfter, htime, hhours,
    hminutes]
  rw [Instant.ofCivil?, dif_pos t.civil]

/-- An instant is read back from its text. -/
@[simp] theorem read?_render (t : Instant) : read? (render t) = some t := by
  obtain ⟨-, ⟨-, hmonth⟩, ⟨-, hday⟩, hhour, hminute, hsecond, hnano⟩ := t.civil
  have hlastDay : Calendar.daysInMonth t.year t.month ≤ 31 := by
    unfold Calendar.daysInMonth
    repeat' split
    all_goals decide
  have htext : (render t).toList =
      year t.year ++ '-' :: (padded 2 t.month ++ '-' :: (padded 2 t.day ++ 'T' ::
        (padded 2 t.hour ++ ':' :: (padded 2 t.minute ++ ':' :: (padded 2 t.second ++
          (fraction t.nano ++ ['Z'])))))) := by
    simp only [render, String.toList_ofList, List.append_assoc, List.cons_append]
  have hhyphen : Blank.isBlank '-' = false := by decide
  have hcolon : Blank.isBlank ':' = false := by decide
  -- Field by field, each reader handing on the text behind its part.
  refine Option.bind_eq_some_iff.2 ⟨_, (congrArg yearField htext).trans (yearField_year _ _), ?_⟩
  refine Option.bind_eq_some_iff.2 ⟨_, mark_cons hhyphen _, ?_⟩
  refine Option.bind_eq_some_iff.2 ⟨_, field_padded (n := t.month) (by omega) _, ?_⟩
  refine Option.bind_eq_some_iff.2 ⟨_, mark_cons hhyphen _, ?_⟩
  refine Option.bind_eq_some_iff.2 ⟨_, field_padded (n := t.day) (by omega) _, ?_⟩
  refine (if_pos (.inl rfl)).trans (Option.bind_eq_some_iff.2 ⟨_, rfl, ?_⟩)
  refine Option.bind_eq_some_iff.2 ⟨_, field_padded (n := t.hour) (by omega) _, ?_⟩
  refine Option.bind_eq_some_iff.2 ⟨_, mark_cons hcolon _, ?_⟩
  refine Option.bind_eq_some_iff.2 ⟨_, field_padded (n := t.minute) (by omega) _, ?_⟩
  refine Option.bind_eq_some_iff.2 ⟨_, mark_cons hcolon _, ?_⟩
  refine Option.bind_eq_some_iff.2 ⟨_, field_padded (n := t.second) (by omega) _, ?_⟩
  refine Option.bind_eq_some_iff.2 ⟨_, nanoField_fraction hnano, ?_⟩
  refine Option.bind_eq_some_iff.2 ⟨(0, []), by decide, ?_⟩
  exact (if_pos rfl).trans (ofLocal?_utc t)

end Rfc3339

end LedgerQuery
