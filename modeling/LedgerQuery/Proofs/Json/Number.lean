/-
  LedgerQuery.Proofs.Json.Number

  Numbers inside JSON text. Reading a number depends only on the text up to its end: what follows
  is handed back, as long as it could not go on the number. So a number that is read back from its
  own text is read back in front of a comma or a bracket too.
-/
import LedgerQuery.Json.Read
import LedgerQuery.Json.Render
import LedgerQuery.Proofs.Text.Digits

namespace LedgerQuery.Json

/-! ## Readers that stop at the end of a number -/

/-- Text that does not go on a number in front of it. -/
def Ends (rest : List Char) : Prop :=
  ∀ c, rest.head? = some c → c.isDigit = false ∧ c ≠ '.' ∧ c ≠ 'e' ∧ c ≠ 'E'

theorem Ends.nil : Ends [] := nofun

theorem Ends.cons {c : Char} (hdigit : c.isDigit = false) (hpoint : c ≠ '.') (hlower : c ≠ 'e')
    (hupper : c ≠ 'E') (rest : List Char) : Ends (c :: rest) := by
  intro d h
  cases h
  exact ⟨hdigit, hpoint, hlower, hupper⟩

/-- Whether a reader hands back the end of a text, and more of it if more follows. -/
def LocalAt {α : Type} (p : List Char → Option (α × List Char)) (cs : List Char) : Prop :=
  ∀ x rest, p cs = some (x, rest) →
    rest <:+ cs ∧ ∀ after, Ends after → p (cs ++ after) = some (x, rest ++ after)

/-- A reader that hands back the end of every text. -/
def Local {α : Type} (p : List Char → Option (α × List Char)) : Prop := ∀ cs, LocalAt p cs

section
variable {α β : Type} {p : List Char → Option (α × List Char)}

theorem Local.bind {q : α → List Char → Option (β × List Char)} (hp : Local p)
    (hq : ∀ x, Local (q x)) : Local fun cs => (p cs).bind fun r => q r.1 r.2 := by
  intro cs y rest h
  obtain ⟨⟨x, middle⟩, hfirst, hsecond⟩ := Option.bind_eq_some_iff.1 h
  have ⟨hwithin, happended⟩ := hp cs x middle hfirst
  have ⟨hwithin', happended'⟩ := hq x middle y rest hsecond
  refine ⟨hwithin'.trans hwithin, fun after hends => ?_⟩
  simp only [happended after hends, Option.bind_some]
  exact happended' after hends

theorem Local.map (hp : Local p) (f : α → β) :
    Local fun cs => (p cs).map fun r => (f r.1, r.2) := by
  intro cs y rest h
  obtain ⟨⟨x, rest⟩, hfirst, hsame⟩ := Option.map_eq_some_iff.1 h
  cases hsame
  have ⟨hwithin, happended⟩ := hp cs x rest hfirst
  refine ⟨hwithin, fun after hends => ?_⟩
  simp only [happended after hends, Option.map_some]

theorem Local.ofOption (x : Option α) : Local fun cs => x.bind fun y => some (y, cs) := by
  intro cs y rest h
  obtain ⟨z, rfl, hsame⟩ := Option.bind_eq_some_iff.1 h
  cases hsame
  exact ⟨List.suffix_rfl, fun after _ => rfl⟩

theorem Local.pure (x : α) : Local fun cs => some (x, cs) := Local.ofOption (some x)

theorem Local.none : Local fun _ => (none : Option (α × List Char)) := nofun

/-- A reader that behaves like another one behind a part of the text, as long as the text goes on
    or ends there. -/
theorem LocalAt.of_eq {q : List Char → Option (α × List Char)} (hq : Local q)
    (skipped cs : List Char)
    (hsame : ∀ after, Ends after → p (skipped ++ (cs ++ after)) = q (cs ++ after)) :
    LocalAt p (skipped ++ cs) := by
  intro x rest h
  have hhere := hsame [] Ends.nil
  rw [List.append_nil] at hhere
  rw [hhere] at h
  have ⟨hwithin, happended⟩ := hq cs x rest h
  refine ⟨hwithin.trans (List.suffix_append skipped cs), fun after hends => ?_⟩
  rw [List.append_assoc, hsame after hends]
  exact happended after hends

end

theorem takeWhile_append_of_ends {p : Char → Bool} {after : List Char}
    (hstop : ∀ c, after.head? = some c → p c = false) (cs : List Char) :
    (cs ++ after).takeWhile p = cs.takeWhile p := by
  induction cs with
  | nil =>
    cases after with
    | nil => rfl
    | cons c after => simp [hstop c rfl]
  | cons c cs ih => simp [List.takeWhile_cons, ih]

theorem digits_local : Local digits := by
  intro cs found rest h
  unfold digits at h
  dsimp only at h
  split at h
  · cases h
  · rename_i hnonempty
    cases h
    refine ⟨List.drop_suffix _ _, fun after hends => ?_⟩
    have hwhole : (cs ++ after).takeWhile Char.isDigit = cs.takeWhile Char.isDigit :=
      takeWhile_append_of_ends (fun c hc => (hends c hc).1) cs
    have hfits : (cs.takeWhile Char.isDigit).length ≤ cs.length :=
      (List.takeWhile_prefix _).length_le
    simp only [digits, hwhole]
    rw [if_neg hnonempty, List.drop_append_of_le_length hfits]

theorem fraction_of_ne {cs : List Char} (h : cs.head? ≠ some '.') :
    fraction cs = some (none, cs) := by
  unfold fraction
  split
  · exact absurd rfl h
  · rfl

theorem fraction_local : Local fraction := by
  intro cs
  cases cs with
  | nil =>
    refine .of_eq (Local.pure none) [] [] fun after hends => fraction_of_ne fun hpoint => ?_
    exact (hends '.' hpoint).2.1 rfl
  | cons c cs =>
    by_cases hpoint : c = '.'
    · cases hpoint
      exact .of_eq (digits_local.map some) ['.'] cs fun after _ => rfl
    · exact .of_eq (Local.pure none) [] (c :: cs) fun after _ =>
        fraction_of_ne (by simpa using hpoint)

/-- The digits of an exponent. -/
def exponentDigits (negative : Bool) (cs : List Char) : Option (Option Int × List Char) :=
  (digits cs).map fun r =>
    (some (if negative then -(Numeral.value r.1 : Int) else Numeral.value r.1), r.2)

theorem exponentDigits_local (negative : Bool) : Local (exponentDigits negative) :=
  digits_local.map fun found =>
    some (if negative then -(Numeral.value found : Int) else Numeral.value found)

theorem exponent_of_ne {cs : List Char} (hlower : cs.head? ≠ some 'e')
    (hupper : cs.head? ≠ some 'E') : exponent cs = some (none, cs) := by
  cases cs with
  | nil => rfl
  | cons c cs =>
    have hother : ¬ (c = 'e' ∨ c = 'E') := by
      rintro (rfl | rfl)
      · exact hlower rfl
      · exact hupper rfl
    unfold exponent
    exact if_neg hother

section
variable {mark : Char} {cs : List Char}

theorem exponent_plus (h : mark = 'e' ∨ mark = 'E') :
    exponent (mark :: '+' :: cs) = exponentDigits false cs := by
  unfold exponent
  exact if_pos h

theorem exponent_minus (h : mark = 'e' ∨ mark = 'E') :
    exponent (mark :: '-' :: cs) = exponentDigits true cs := by
  unfold exponent
  exact if_pos h

theorem exponent_unsigned (h : mark = 'e' ∨ mark = 'E') (hplus : cs.head? ≠ some '+')
    (hminus : cs.head? ≠ some '-') : exponent (mark :: cs) = exponentDigits false cs := by
  unfold exponent
  refine (if_pos h).trans ?_
  split
  rename_i hsame
  split at hsame
  · exact absurd rfl hplus
  · exact absurd rfl hminus
  · cases hsame
    rfl

end

theorem exponent_local : Local exponent := by
  intro cs
  cases cs with
  | nil =>
    refine .of_eq (Local.pure none) [] [] fun after hends => exponent_of_ne ?_ ?_
    · exact fun hlower => (hends 'e' hlower).2.2.1 rfl
    · exact fun hupper => (hends 'E' hupper).2.2.2 rfl
  | cons c cs =>
    by_cases hmark : c = 'e' ∨ c = 'E'
    · cases cs with
      | nil =>
        -- A mark without digits is no exponent, so there is nothing that could go on.
        intro x rest h
        rw [exponent_unsigned hmark (by simp) (by simp)] at h
        cases h
      | cons d cs =>
        by_cases hplus : d = '+'
        · cases hplus
          exact .of_eq (exponentDigits_local false) [c, '+'] cs fun after _ => exponent_plus hmark
        · by_cases hminus : d = '-'
          · cases hminus
            exact .of_eq (exponentDigits_local true) [c, '-'] cs fun after _ => exponent_minus hmark
          · refine .of_eq (exponentDigits_local false) [c] (d :: cs) fun after _ => ?_
            exact exponent_unsigned hmark (by simpa using hplus) (by simpa using hminus)
    · rw [not_or] at hmark
      refine .of_eq (Local.pure none) [] (c :: cs) fun after _ => ?_
      exact exponent_of_ne (by simpa using hmark.1) (by simpa using hmark.2)

/-! ## Numbers -/

/-- A number after its sign. -/
def unsigned (negative : Bool) (cs : List Char) : Option (Json × List Char) :=
  (digits cs).bind fun whole =>
    if whole.1.head? = some '0' ∧ 1 < whole.1.length then none
    else (fraction whole.2).bind fun behind => (exponent behind.2).bind fun power =>
      (numberOf negative whole.1 behind.1 power.1).bind fun j => some (j, power.2)

theorem number_minus (cs : List Char) : number ('-' :: cs) = unsigned true cs := rfl

theorem number_of_ne {cs : List Char} (h : cs.head? ≠ some '-') :
    number cs = unsigned false cs := by
  unfold number
  split
  rename_i hsame
  split at hsame
  · exact absurd rfl h
  · cases hsame
    rfl

theorem unsigned_local (negative : Bool) : Local (unsigned negative) := by
  have hafterFraction (whole : List Char) (behind : Option (List Char)) :
      Local fun cs => (exponent cs).bind fun power =>
        (numberOf negative whole behind power.1).bind fun j => some (j, power.2) :=
    (exponent_local.bind fun power => Local.ofOption (numberOf negative whole behind power) :)
  have hafterWhole (whole : List Char) :
      Local fun cs => if whole.head? = some '0' ∧ 1 < whole.length then none
        else (fraction cs).bind fun behind => (exponent behind.2).bind fun power =>
          (numberOf negative whole behind.1 power.1).bind fun j => some (j, power.2) := by
    split
    · exact Local.none
    · exact (fraction_local.bind (hafterFraction whole) :)
  exact (digits_local.bind hafterWhole :)

theorem number_local : Local number := by
  intro cs
  cases cs with
  | nil => nofun
  | cons c cs =>
    by_cases hminus : c = '-'
    · cases hminus
      exact .of_eq (unsigned_local true) ['-'] cs fun after _ => number_minus (cs ++ after)
    · refine .of_eq (unsigned_local false) [] (c :: cs) fun after _ => ?_
      exact number_of_ne (by simpa using hminus)

/-! ## Integers -/

/-- Digits that fit 64 bits are all added, since the sum never falls. -/
theorem accumulate_eq {n : Nat} {cs : List Char}
    (h : cs.foldl (fun total c => total * 10 + Numeral.digitValue c) n < UInt64.size) :
    accumulate n cs =
      (cs.foldl (fun total c => total * 10 + Numeral.digitValue c) n, cs.length) := by
  -- If the whole sum fits, so does every sum on the way.
  have hgrows (cs : List Char) (n : Nat) :
      n ≤ cs.foldl (fun total c => total * 10 + Numeral.digitValue c) n := by
    induction cs generalizing n with
    | nil => exact Nat.le_refl n
    | cons c cs ih => exact Nat.le_trans (by omega) (ih (n * 10 + Numeral.digitValue c))
  induction cs generalizing n with
  | nil => rfl
  | cons c cs ih =>
    rw [List.foldl_cons] at h
    have hnext : n * 10 + Numeral.digitValue c < UInt64.size := Nat.lt_of_le_of_lt (hgrows cs _) h
    simp only [accumulate, if_pos hnext, ih h, List.foldl_cons, List.length_cons]

theorem accumulate_digits {n : Nat} (h : n < UInt64.size) :
    accumulate 0 (Numeral.digits n) = (n, (Numeral.digits n).length) := by
  have htotal : (Numeral.digits n).foldl (fun total c => total * 10 + Numeral.digitValue c) 0 = n :=
    Numeral.value_digits n
  rw [accumulate_eq (by rwa [htotal]), htotal]

theorem digits_digits (n : Nat) : digits (Numeral.digits n) = some (Numeral.digits n, []) := by
  have hrun : (Numeral.digits n).takeWhile Char.isDigit = Numeral.digits n := by
    have hall : ∀ c ∈ Numeral.digits n, c.isDigit = true := fun _ => Numeral.isDigit_of_mem_digits
    rw [← List.append_nil (Numeral.digits n), List.takeWhile_append_of_pos (by simpa using hall)]
    simp
  have hnonempty : ¬ (Numeral.digits n).isEmpty = true := by simpa using Numeral.digits_ne_nil n
  simp only [digits, hrun]
  rw [if_neg hnonempty, List.drop_length]

theorem unsigned_digits (negative : Bool) (n : Nat) :
    unsigned negative (Numeral.digits n) =
      (numberOf negative (Numeral.digits n) none none).map (·, []) := by
  simp only [unsigned, digits_digits, Option.bind_some, if_neg (Numeral.not_leadingZero n)]
  cases h : numberOf negative (Numeral.digits n) none none <;> simp [fraction, exponent, h]

theorem numberOf_digits (negative : Bool) {n : Nat} (h : n < UInt64.size)
    (hsign : negative = true → n ≠ 0 ∧ n ≤ 9223372036854775808) :
    numberOf negative (Numeral.digits n) none none =
      some (.integer (if negative then -(n : Int) else n)) := by
  cases negative with
  | false => simp [numberOf, accumulate_digits h, accumulate]
  | true =>
    have ⟨hpositive, hmost⟩ := hsign rfl
    have hinRange : ¬ (n = 0 ∨ 9223372036854775808 < n) := by omega
    simp [numberOf, accumulate_digits h, accumulate, hinRange]

/-- An integer of 64 bits, signed or not, is read back from its text. -/
theorem number_integerText {n : Int} (hlow : -9223372036854775808 ≤ n) (hhigh : n < UInt64.size) :
    number (integerText n) = some (.integer n, []) := by
  cases n with
  | ofNat n =>
    have hunsignedText : (Numeral.digits n).head? ≠ some '-' := fun hminus =>
      absurd (Numeral.isDigit_of_mem_digits (List.mem_of_mem_head? hminus)) (by decide)
    rw [integerText, number_of_ne hunsignedText, unsigned_digits,
      numberOf_digits false (Int.ofNat_lt.1 hhigh) nofun]
    rfl
  | negSucc n =>
    have hsize : n + 1 < UInt64.size := by simp only [UInt64.size]; omega
    rw [integerText, number_minus, unsigned_digits,
      numberOf_digits true hsize fun _ => ⟨by omega, by omega⟩]
    rfl

/-! ## Doubles -/

/-- The characters of numbers. -/
def Numeric (c : Char) : Prop := c.isDigit = true ∨ c = '.' ∨ c = 'e' ∨ c = '+' ∨ c = '-'

instance (c : Char) : Decidable (Numeric c) := inferInstanceAs (Decidable (_ ∨ _))

theorem Numeric.ne {c d : Char} (h : Numeric c) (hother : ¬ Numeric d) : c ≠ d :=
  fun hsame => hother (hsame ▸ h)

theorem numeric_of_mem_digits {n : Nat} {c : Char} (h : c ∈ Numeral.digits n) : Numeric c :=
  .inl (Numeral.isDigit_of_mem_digits h)

theorem numeric_of_mem_integerText {n : Int} : ∀ c ∈ integerText n, Numeric c := by
  cases n with
  | ofNat n => exact fun c => numeric_of_mem_digits
  | negSucc n =>
    intro c hc
    cases List.mem_cons.1 hc with
    | inl hminus => simp [Numeric, hminus]
    | inr hdigit => exact numeric_of_mem_digits hdigit

theorem numeric_of_mem_decimalText (d : Decimal) : ∀ c ∈ decimalText d, Numeric c := by
  have hzero : Numeric '0' := .inl rfl
  have hpoint : Numeric '.' := .inr (.inl rfl)
  have hzeros (count : Nat) : ∀ c ∈ List.replicate count '0', Numeric c := fun c hc =>
    List.eq_of_mem_replicate hc ▸ hzero
  have hdigit : ∀ c ∈ Numeral.digits d.digits, Numeric c := fun c => numeric_of_mem_digits
  unfold decimalText
  dsimp only
  generalize Numeral.digits d.digits = ds at hdigit
  generalize d.exponent + (ds.length : Int) - 1 = exponent
  have hmark : ∀ c ∈ 'e' :: (if exponent < 0 then '-' else '+') :: Numeral.digits exponent.natAbs,
      Numeric c := by
    refine List.forall_mem_cons.2 ⟨.inr (.inr (.inl rfl)), List.forall_mem_cons.2 ⟨?_, ?_⟩⟩
    · split
      · exact .inr (.inr (.inr (.inr rfl)))
      · exact .inr (.inr (.inr (.inl rfl)))
    · exact fun c => numeric_of_mem_digits
  split
  · -- Zeros behind the digits, a point among them, or zeros in front of them.
    split
    · simp only [List.forall_mem_append, List.forall_mem_cons]
      exact ⟨⟨hdigit, hzeros _⟩, hpoint, hzero, nofun⟩
    · split
      · simp only [List.forall_mem_append, List.forall_mem_cons]
        exact ⟨fun c hc => hdigit c (List.mem_of_mem_take hc), hpoint,
          fun c hc => hdigit c (List.mem_of_mem_drop hc)⟩
      · simp only [List.forall_mem_append, List.forall_mem_cons]
        exact ⟨hzero, hpoint, hzeros _, hdigit⟩
  · split
    · simp only [List.forall_mem_cons] at hdigit
      simp only [List.cons_append, List.forall_mem_cons, List.forall_mem_append]
      obtain ⟨hfirst, hsecond, hrest⟩ := hdigit
      simp only [List.forall_mem_cons] at hmark
      exact ⟨hfirst, hpoint, hsecond, hrest, hmark⟩
    · exact List.forall_mem_append.2 ⟨hdigit, hmark⟩

/-- A finite double is written with the characters of numbers only. -/
theorem numeric_of_mem_floatText {x : Binary64} (hfinite : x.isFinite = true) :
    ∀ c ∈ floatText x, Numeric c := by
  have hsign : ∀ c ∈ (if x.isNegative then ['-'] else []), Numeric c := by
    split
    · exact List.forall_mem_singleton.2 (.inr (.inr (.inr (.inr rfl))))
    · nofun
  rw [floatText, if_pos hfinite]
  dsimp only
  split
  · have hzero : Numeric '0' := .inl rfl
    simp only [List.forall_mem_append, List.forall_mem_cons]
    exact ⟨hsign, hzero, .inr (.inl rfl), hzero, nofun⟩
  · exact List.forall_mem_append.2 ⟨hsign, numeric_of_mem_decimalText _⟩

/-! ## Values that are numbers -/

theorem skipBlank_cons {c : Char} (h : isBlank c = false) (cs : List Char) :
    skipBlank (c :: cs) = c :: cs := by
  simp [skipBlank, h]

theorem Numeric.isBlank {c : Char} (h : Numeric c) : isBlank c = false := by
  have hspace : c ≠ ' ' := h.ne (by decide)
  have hnewline : c ≠ '\n' := h.ne (by decide)
  have htab : c ≠ '\t' := h.ne (by decide)
  have hcarriage : c ≠ '\r' := h.ne (by decide)
  simp [Json.isBlank, hspace, hnewline, htab, hcarriage]

/-- Text that starts like a number is read as a number. -/
theorem value_of_numeric {c : Char} (h : Numeric c) (fuel depth : Nat) (cs : List Char) :
    value (fuel + 1) depth (c :: cs) = number (c :: cs) := by
  -- None of the characters that other values start with is in a number.
  have hother {d : Char} {tail : List Char} (hsame : c :: cs = d :: tail) : Numeric d := by
    cases hsame
    exact h
  simp only [value, skipBlank_cons h.isBlank]
  split
  · rename_i hsame
    exact absurd (hother hsame) (by decide)
  · rename_i hsame
    exact absurd (hother hsame) (by decide)
  · rename_i hsame
    exact absurd (hother hsame) (by decide)
  · rename_i hsame
    exact absurd (hother hsame) (by decide)
  · rename_i hsame
    exact absurd (hother hsame) (by decide)
  · rename_i hsame
    exact absurd (hother hsame) (by decide)
  · rfl

/-- Whether the text of a double stands for that double. -/
def Legible (x : Binary64) : Prop := read? (render (.float x)) = some (.float x)

instance (x : Binary64) : Decidable (Legible x) :=
  match h : read? (render (.float x)) with
  | some (.float y) =>
    if same : y = x then .isTrue (by rw [Legible, h, same])
    else .isFalse fun legible => same (by rw [Legible, h] at legible; cases legible; rfl)
  | none | some .null | some (.bool _) | some (.integer _) | some (.text _) | some (.array _)
  | some (.object _) => .isFalse fun legible => by rw [Legible, h] at legible; cases legible

/-- Only finite doubles are read back, since all others are written as null. -/
theorem finite_of_legible {x : Binary64} (h : Legible x) : x.isFinite = true := by
  cases hfinite : x.isFinite with
  | true => rfl
  | false =>
    have hnull : characters (.float x) = ['n', 'u', 'l', 'l'] := if_neg (by simp [hfinite])
    rw [Legible, render, hnull] at h
    cases h

theorem floatText_eq_cons {x : Binary64} (h : Legible x) :
    ∃ c cs, floatText x = c :: cs ∧ Numeric c := by
  cases htext : floatText x with
  | nil =>
    have hempty : characters (.float x) = [] := htext
    rw [Legible, render, hempty] at h
    cases h
  | cons c cs =>
    have hnumeric := numeric_of_mem_floatText (finite_of_legible h) c
    exact ⟨c, cs, rfl, hnumeric (htext ▸ List.mem_cons_self)⟩

/-- A double that is read back from its text is read back by the reader of numbers, which
    leaves nothing of the text. -/
theorem number_floatText {x : Binary64} (h : Legible x) :
    number (floatText x) = some (.float x, []) := by
  have hnumeric := numeric_of_mem_floatText (finite_of_legible h)
  have htext : (render (.float x)).toList = floatText x := String.toList_ofList
  obtain ⟨c, tail, hcs, hfirst⟩ := floatText_eq_cons h
  rw [hcs] at hnumeric ⊢
  have hstart : value (2 * (c :: tail).length + 2) deepest (c :: tail) = number (c :: tail) :=
    value_of_numeric hfirst (2 * (c :: tail).length + 1) deepest tail
  rw [Legible, read?, htext, hcs, hstart] at h
  split at h
  · rename_i j rest hfound
    have hwithin : rest <:+ c :: tail := (number_local _ _ _ hfound).1
    -- What is left starts with a character of the text, which is no blank.
    cases rest with
    | nil =>
      cases h
      exact hfound
    | cons d rest =>
      have hvisible := (hnumeric d (hwithin.subset List.mem_cons_self)).isBlank
      rw [skipBlank_cons hvisible, if_neg nofun] at h
      cases h
  · cases h

end LedgerQuery.Json
