/-
  LedgerQuery.Proofs.Query.Like

  What text patterns mean. `Matches` is the language of a pattern, one clause for each kind of
  character. The matcher goes back to the last `%` alone, and that is enough: what a `%` can be
  followed by, a later one that has been passed can be followed by as well
  (`matches_run_append_run`). So the scan from a `%` on finds whether some end of the text belongs
  to the rest of the pattern (`scan_iff`). Main statement: `decides_language`.
-/
import Mathlib.Data.List.Forall2
import LedgerQuery.Query.Expression

namespace LedgerQuery.Like

/-! ## The language of a pattern -/

/-- Whether a text belongs to the language of a pattern. -/
def Matches : (pattern text : List Char) → Prop
  | [], text => text = []
  | c :: pattern, text =>
    if c = anyRun then ∃ rest, rest <:+ text ∧ Matches pattern rest
    else ∃ t rest, text = t :: rest ∧ (c = anyOne ∨ c = t) ∧ Matches pattern rest

/-- A pattern character, not the one for a run, that stands for a character. -/
def Takes (c t : Char) : Prop := c ≠ anyRun ∧ (c = anyOne ∨ c = t)

variable {c t : Char} {pattern text rest : List Char}

theorem matches_run :
    Matches (anyRun :: pattern) text ↔ ∃ rest, rest <:+ text ∧ Matches pattern rest := by
  rw [Matches, if_pos rfl]

theorem matches_cons_iff (hc : c ≠ anyRun) :
    Matches (c :: pattern) text ↔
      ∃ t rest, text = t :: rest ∧ (c = anyOne ∨ c = t) ∧ Matches pattern rest := by
  rw [Matches, if_neg hc]

theorem matches_cons_cons_iff (hc : c ≠ anyRun) :
    Matches (c :: pattern) (t :: text) ↔ (c = anyOne ∨ c = t) ∧ Matches pattern text := by
  rw [matches_cons_iff hc]
  constructor
  · rintro ⟨t', rest, heq, htakes, hrest⟩
    cases heq
    exact ⟨htakes, hrest⟩
  · rintro ⟨htakes, hrest⟩
    exact ⟨t, text, rfl, htakes, hrest⟩

/-- Where the text has ended, only runs can follow. -/
theorem matches_nil_iff : Matches pattern [] ↔ pattern.all (· = anyRun) = true := by
  induction pattern with
  | nil => exact ⟨fun _ => rfl, fun _ => rfl⟩
  | cons c pattern ih =>
    rw [List.all_cons, Bool.and_eq_true, decide_eq_true_iff, ← ih]
    by_cases hc : c = anyRun
    · rw [hc, matches_run]
      simp
    · rw [matches_cons_iff hc]
      simp [hc]

/-- A pattern without special characters has one text in its language, itself. -/
theorem matches_literal_iff (h : ∀ c ∈ pattern, c ≠ anyRun ∧ c ≠ anyOne) :
    Matches pattern text ↔ text = pattern := by
  induction pattern generalizing text with
  | nil => rfl
  | cons c pattern ih =>
    obtain ⟨⟨hrun, hone⟩, hrest⟩ := List.forall_mem_cons.1 h
    rw [matches_cons_iff hrun]
    constructor
    · rintro ⟨t, rest, rfl, htakes, hmatches⟩
      rw [(ih hrest).1 hmatches, htakes.resolve_left hone]
    · rintro rfl
      exact ⟨c, pattern, rfl, .inr rfl, (ih hrest).2 rfl⟩

/-! ## Patterns read in step with the text -/

variable {read taken : List Char}

/-- What has been read in step can be put back in front of both. -/
theorem matches_append_iff (h : List.Forall₂ Takes read taken) :
    Matches (read ++ pattern) (taken ++ text) ↔ Matches pattern text := by
  induction h with
  | nil => rfl
  | cons htakes _ ih =>
    rw [List.cons_append, List.cons_append, matches_cons_cons_iff htakes.1, ih]
    exact and_iff_right htakes.2

/-- A text in the language begins with as many characters as the pattern has before its runs. -/
theorem exists_of_matches_append (hread : ∀ c ∈ read, c ≠ anyRun)
    (h : Matches (read ++ pattern) text) :
    ∃ front rest, text = front ++ rest ∧ front.length = read.length ∧ Matches pattern rest := by
  induction read generalizing text with
  | nil => exact ⟨[], text, rfl, rfl, h⟩
  | cons c read ih =>
    obtain ⟨hc, hread⟩ := List.forall_mem_cons.1 hread
    rw [List.cons_append, matches_cons_iff hc] at h
    obtain ⟨t, text, rfl, -, hmatches⟩ := h
    obtain ⟨front, rest, rfl, hlength, hrest⟩ := ih hread hmatches
    exact ⟨t :: front, rest, rfl, congrArg Nat.succ hlength, hrest⟩

theorem ne_anyRun_of_forall₂ (h : List.Forall₂ Takes read taken) : ∀ c ∈ read, c ≠ anyRun := by
  induction h with
  | nil => exact fun c hc => absurd hc List.not_mem_nil
  | cons htakes _ ih => exact List.forall_mem_cons.2 ⟨htakes.1, ih⟩

/-- Of a run and a pattern read in step after it, the run need not take in more once a later run
    has been reached: whatever the first could skip, the second can. -/
theorem matches_run_append_run (h : List.Forall₂ Takes read taken) :
    Matches (anyRun :: (read ++ anyRun :: pattern)) (taken ++ text) ↔
      Matches (anyRun :: pattern) text := by
  rw [matches_run]
  constructor
  · rintro ⟨later, hlater, hmatches⟩
    obtain ⟨front, rest, rfl, hlength, hrest⟩ :=
      exists_of_matches_append (ne_anyRun_of_forall₂ h) hmatches
    obtain ⟨last, hlast, hmatches'⟩ := matches_run.1 hrest
    refine matches_run.2 ⟨last, ?_, hmatches'⟩
    -- What is left after as many characters as were taken is no longer than `text`.
    have hshort := hlast.length_le
    have hfits := hlater.length_le
    have htaken := h.length_eq
    simp only [List.length_append] at hfits
    exact List.suffix_of_suffix_length_le ((hlast.trans (List.suffix_append _ _)).trans hlater)
      (List.suffix_append _ _) (by omega)
  · intro hmatches
    exact ⟨taken ++ text, List.suffix_refl _, (matches_append_iff h).2 hmatches⟩

/-- A run whose remaining pattern does not fit where the run stops takes in one more character. -/
theorem matches_run_cons_iff (h : ¬ Matches pattern (t :: text)) :
    Matches (anyRun :: pattern) (t :: text) ↔ Matches (anyRun :: pattern) text := by
  rw [matches_run, matches_run]
  constructor
  · rintro ⟨rest, hrest, hmatches⟩
    rcases List.suffix_cons_iff.1 hrest with rfl | hlater
    · exact absurd hmatches h
    · exact ⟨rest, hlater, hmatches⟩
  · rintro ⟨rest, hrest, hmatches⟩
    exact ⟨rest, hrest.trans (List.suffix_cons _ _), hmatches⟩

/-- Where the text has ended, a run that takes in more leaves too little for what was read. -/
theorem matches_run_append_nil_iff (h : List.Forall₂ Takes read taken) :
    Matches (anyRun :: (read ++ pattern)) taken ↔ pattern.all (· = anyRun) = true := by
  rw [matches_run, ← matches_nil_iff]
  constructor
  · rintro ⟨later, hlater, hmatches⟩
    obtain ⟨front, rest, rfl, hlength, hrest⟩ :=
      exists_of_matches_append (ne_anyRun_of_forall₂ h) hmatches
    have hfits := hlater.length_le
    have htaken := h.length_eq
    rw [List.length_append] at hfits
    obtain rfl : rest = [] := List.length_eq_zero_iff.1 (by omega)
    exact hrest
  · intro hmatches
    have hall : Matches (read ++ pattern) (taken ++ []) := (matches_append_iff h).2 hmatches
    rw [List.append_nil] at hall
    exact ⟨taken, List.suffix_refl _, hall⟩

/-! ## The matcher -/

/-- From a run on, with what has been read in step since, the matcher finds whether some end of the
    text belongs to what follows the run. -/
theorem scan_iff {resumeText resumePattern : List Char} (hbehind : text.length ≤ resumeText.length)
    (hpattern : resumePattern = read ++ pattern) (htext : resumeText = taken ++ text)
    (h : List.Forall₂ Takes read taken) :
    scan text pattern resumeText resumePattern hbehind = true ↔
      Matches (anyRun :: resumePattern) resumeText := by
  fun_induction scan text pattern resumeText resumePattern hbehind generalizing read taken with
  | case1 resumeText resumePattern pattern _ _ =>
    rw [hpattern, htext, List.append_nil, matches_run_append_nil_iff h]
  | case2 pattern resumePattern t ts hbehind _ => exact absurd hbehind (Nat.not_succ_le_zero _)
  | case3 t ts ps r rs resumePattern _ _ ih =>
    rw [ih rfl rfl .nil, hpattern, htext, matches_run_append_run h]
  | case4 t ts c ps r rs resumePattern _ hrun htakes _ ih =>
    -- Both go one character on.
    refine ih ?_ ?_ (List.rel_append h (.cons ⟨hrun, htakes⟩ .nil))
    · rw [hpattern, List.append_assoc]; rfl
    · rw [htext, List.append_assoc]; rfl
  | case5 t ts c ps r rs resumePattern _ hrun htakes _ ih =>
    have hmismatch : ¬ Matches resumePattern (r :: rs) := by
      rw [hpattern, htext, matches_append_iff h, matches_cons_cons_iff hrun]
      exact fun hmatches => htakes hmatches.1
    rw [matches_run_cons_iff hmismatch, ih rfl rfl .nil]
  | case6 t ts r rs resumePattern _ _ ih =>
    have hmismatch : ¬ Matches resumePattern (r :: rs) := by
      rw [hpattern, htext, matches_append_iff h]
      exact List.cons_ne_nil t ts
    rw [matches_run_cons_iff hmismatch, ih rfl rfl .nil]

theorem start_iff : start text pattern = true ↔ Matches pattern text := by
  fun_induction start text pattern with
  | case1 pattern => exact matches_nil_iff.symm
  | case2 t ts ps =>
    exact scan_iff (Nat.le_refl _) rfl rfl .nil
  | case3 t ts c ps hrun htakes ih =>
    rw [ih, matches_cons_cons_iff hrun]
    exact (and_iff_right htakes).symm
  | case4 t ts c ps hrun htakes =>
    rw [matches_cons_cons_iff hrun]
    exact iff_of_false Bool.false_ne_true fun h => htakes h.1
  | case5 t ts => exact iff_of_false Bool.false_ne_true (List.cons_ne_nil t ts)

/-! ## Turn by turn -/

/-- Where the matcher stands: what is left of text and pattern and, once a `%` has been passed,
    where that stopped in the text and what follows it in the pattern. -/
structure Cursor where
  text : List Char
  pattern : List Char
  resume : Option (List Char × List Char) := none

namespace Cursor

/-- Back to the last `%`, which takes one character more; without one there is no match. -/
def back : Option (List Char × List Char) → Bool ⊕ Cursor
  | some (_ :: text, pattern) => .inr ⟨text, pattern, some (text, pattern)⟩
  | _ => .inl false

/-- One turn of the matcher: its answer, or where it stands next. -/
def turn : Cursor → Bool ⊕ Cursor
  | ⟨[], pattern, _⟩ => .inl (pattern.all (· = anyRun))
  | ⟨t :: text, c :: pattern, resume⟩ =>
    if c = anyRun then .inr ⟨t :: text, pattern, some (t :: text, pattern)⟩
    else if c = anyOne ∨ c = t then .inr ⟨text, pattern, resume⟩
    else back resume
  | ⟨_ :: _, [], resume⟩ => back resume

/-- From a place, the matcher comes to an answer after finitely many turns. -/
inductive Ends : Cursor → Bool → Prop
  | answer {place : Cursor} {b : Bool} (h : place.turn = .inl b) : Ends place b
  | onward {place next : Cursor} {b : Bool} (h : place.turn = .inr next) (hnext : Ends next b) :
    Ends place b

end Cursor

theorem ends_scan {resumeText resumePattern : List Char}
    (hbehind : text.length ≤ resumeText.length) :
    Cursor.Ends ⟨text, pattern, some (resumeText, resumePattern)⟩
      (scan text pattern resumeText resumePattern hbehind) := by
  fun_induction scan text pattern resumeText resumePattern hbehind with
  | case1 => exact .answer rfl
  | case2 pattern resumePattern t ts hbehind _ => exact absurd hbehind (Nat.not_succ_le_zero _)
  | case3 t ts ps r rs resumePattern _ _ ih => exact .onward rfl ih
  | case4 t ts c ps r rs resumePattern _ hrun htakes _ ih =>
    exact .onward ((if_neg hrun).trans (if_pos htakes)) ih
  | case5 t ts c ps r rs resumePattern _ hrun htakes _ ih =>
    exact .onward ((if_neg hrun).trans (if_neg htakes)) ih
  | case6 t ts r rs resumePattern _ _ ih => exact .onward rfl ih

theorem ends_start : Cursor.Ends ⟨text, pattern, none⟩ (start text pattern) := by
  fun_induction start text pattern with
  | case1 pattern => exact .answer rfl
  | case2 t ts ps => exact .onward rfl (ends_scan _)
  | case3 t ts c ps hrun htakes ih => exact .onward ((if_neg hrun).trans (if_pos htakes)) ih
  | case4 t ts c ps hrun htakes => exact .answer ((if_neg hrun).trans (if_neg htakes))
  | case5 t ts => exact .answer rfl

/-! ## Patterns and texts -/

theorem characters_inj {ignoreCase : Bool} {a b : String} :
    characters ignoreCase a = characters ignoreCase b ↔
      Scalar.equals ignoreCase (.text a) (.text b) = true := by
  cases ignoreCase <;> simp [characters, Scalar.equals, Scalar.compare?, String.toList_inj]

/-- Matching a text against a pattern comes to an end, turn by turn, with the answer whether the
    text belongs to the language of the pattern, both in lower case if case is ignored. So a pattern
    that has no special character is matched by the texts that equal it, and of the two comparisons
    with a pattern exactly one holds of a record whose field is a text. -/
theorem decides_language (ignoreCase : Bool) (text pattern : String) :
    let t := characters ignoreCase text
    let p := characters ignoreCase pattern
    Cursor.Ends ⟨t, p, none⟩ (holds ignoreCase text pattern) ∧
      (holds ignoreCase text pattern = true ↔ Matches p t) ∧
      ((∀ c ∈ p, c ≠ anyRun ∧ c ≠ anyOne) →
        holds ignoreCase text pattern = Scalar.equals ignoreCase (.text text) (.text pattern)) ∧
      ∀ (r : StoredRecord) (field : FieldPath), field.read r = some (.text text) →
        (Expression.like field pattern ignoreCase).holds r = holds ignoreCase text pattern ∧
          (Expression.notLike field pattern ignoreCase).holds r =
            !(Expression.like field pattern ignoreCase).holds r := by
  intro t p
  refine ⟨ends_start, start_iff, fun hliteral => ?_, fun r field hfield => ?_⟩
  · rw [Bool.eq_iff_iff, ← characters_inj]
    exact start_iff.trans (matches_literal_iff hliteral)
  · simp [Expression.holds, hfield, Scalar.text?]

example : holds true "ABC" "a%" = true := by cbv

/-- A record that goes by an external name. -/
def labelled (name : String) : StoredRecord where
  reference := ⟨.ofNumber 1, 0⟩
  back := none
  lineage := [.any]
  payload := .null
  participants := []
  linearId := some ⟨.timeOrdered 0 0, some name⟩
  relevant := true
  status := .unconsumed
  recordedAt := .epoch
  consumedAt := none

/-- A text for which the matcher has to go back to the second of two runs, and a pattern without
    runs in other letters than the text. -/
theorem decides_language_secondRun :
    let field : FieldPath := .ofRecord .externalId
    Matches ['%', 'b', '%', 'c'] ['a', 'b', 'c', 'b', 'c'] ∧
      holds false "abcbc" "%b%c" = true ∧
      (Expression.notLike field "%b%c" false).holds (labelled "abcbc") = false ∧
      (∀ c ∈ characters true "AB", c ≠ anyRun ∧ c ≠ anyOne) ∧
      holds true "ab" "AB" = Scalar.equals true (.text "ab") (.text "AB") := by
  intro field
  obtain ⟨-, hlanguage, -, hfields⟩ := decides_language false "abcbc" "%b%c"
  obtain ⟨-, -, hliteral, -⟩ := decides_language true "ab" "AB"
  have hmember : Matches ['%', 'b', '%', 'c'] ['a', 'b', 'c', 'b', 'c'] := by
    refine matches_run.2 ⟨['b', 'c', 'b', 'c'], ⟨['a'], rfl⟩, ?_⟩
    refine (matches_cons_cons_iff (by decide)).2 ⟨.inr rfl, ?_⟩
    refine matches_run.2 ⟨['c'], ⟨['c', 'b'], rfl⟩, ?_⟩
    exact (matches_cons_cons_iff (by decide)).2 ⟨.inr rfl, rfl⟩
  have hholds : holds false "abcbc" "%b%c" = true := hlanguage.2 hmember
  have hplain : ∀ c ∈ characters true "AB", c ≠ anyRun ∧ c ≠ anyOne := by
    rw [characters, if_pos rfl, Lowercase.fold, String.toList_ofList]
    simp [Lowercase.characters, Lowercase.after, Lowercase.character, anyRun, anyOne]
  obtain ⟨hlike, hnotLike⟩ := hfields (labelled "abcbc") field rfl
  refine ⟨hmember, hholds, ?_, hplain, hliteral hplain⟩
  rw [hnotLike, hlike, hholds]
  rfl

end LedgerQuery.Like
