/-
  LedgerQuery.Proofs.Json.Read

  A JSON value is read back from its canonical text, whatever the reader finds behind it. Main
  statement: `read?_render`, for every value that the reader can take: not nested too deep, and
  without a double that its own text stands for another one.
-/
import LedgerQuery.Proofs.Json.Number

namespace LedgerQuery.Json

/-! ## Text in quotes -/

/-- The two digits of an escape by number. -/
theorem hex4_byte {n : Nat} (h : n < 256) (rest : List Char) :
    hex4 ('0' :: '0' :: Hex.digit (n / 16) :: Hex.digit (n % 16) :: rest) = some (n, rest) := by
  have hhigh : n / 16 < 16 := by omega
  have hlow : n % 16 < 16 := by omega
  have hzero : Hex.digitValue? (UInt8.ofNat '0'.toNat) = some 0 := by decide
  have hascii : '0'.toNat < 128 := by decide
  have hwhole : ((0 * 16 + 0) * 16 + n / 16) * 16 + n % 16 = n := by omega
  simp only [hex4, if_pos hascii, hzero, if_pos (Hex.toNat_digit_lt hhigh),
    if_pos (Hex.toNat_digit_lt hlow), Hex.digitValue?_digit hhigh, Hex.digitValue?_digit hlow,
    Option.bind_eq_bind, Option.bind_some, hwhole]
  rfl

theorem escaped_byte {n : Nat} (h : n < 256) (rest : List Char) :
    escaped ('u' :: '0' :: '0' :: Hex.digit (n / 16) :: Hex.digit (n % 16) :: rest) =
      some (Char.ofNat n, rest) := by
  have hplain : n < 0xD800 ∨ 0xE000 ≤ n := .inl (by omega)
  simp only [escaped, hex4_byte h, Option.bind_eq_bind, Option.bind_some]
  rw [if_pos hplain]
  rfl

/-- A character stands inside quotes as itself, or as an escape that is read as it. -/
theorem escape_cases (c : Char) :
    (escape c = [c] ∧ c ≠ '"' ∧ c ≠ '\\' ∧ ¬ c.toNat < 0x20) ∨
      ∃ e, escape c = '\\' :: e ∧ ∀ cs, escaped (e ++ cs) = some (c, cs) := by
  unfold escape
  -- The seven characters with an escape of their own.
  iterate 7
    split
    · rename_i hsame
      cases hsame
      exact .inr ⟨_, rfl, fun cs => rfl⟩
  split
  · rename_i hcontrol
    refine .inr ⟨_, rfl, fun cs => ?_⟩
    have hbyte := escaped_byte (n := c.toNat) (by omega) cs
    rwa [Char.ofNat_toNat] at hbyte
  · rename_i hquote hbackslash _ _ _ _ _ hcontrol
    exact .inl ⟨rfl, hquote, hbackslash, hcontrol⟩

/-- Whatever stands for a character inside quotes is read as that character. -/
theorem quotedBody_escape {c : Char} {fuel : Nat} {cs found rest : List Char}
    (h : quotedBody fuel cs = some (found, rest)) :
    quotedBody (fuel + 1) (escape c ++ cs) = some (c :: found, rest) := by
  rcases escape_cases c with ⟨hself, hquote, hbackslash, hcontrol⟩ | ⟨e, hescape, hread⟩
  · simp [hself, quotedBody, hquote, hbackslash, hcontrol, h]
  · simp [hescape, quotedBody, hread, h]

theorem quotedBody_flatMap {cs : List Char} {fuel : Nat} (hfits : cs.length < fuel)
    (rest : List Char) :
    quotedBody fuel (cs.flatMap escape ++ '"' :: rest) = some (cs, rest) := by
  induction cs generalizing fuel with
  | nil =>
    obtain ⟨fuel, rfl⟩ := Nat.exists_eq_add_of_lt hfits
    simp [quotedBody]
  | cons c cs ih =>
    cases fuel with
    | zero => cases hfits
    | succ fuel =>
      rw [List.flatMap_cons, List.append_assoc]
      exact quotedBody_escape (ih (Nat.lt_of_succ_lt_succ hfits))

theorem textBody_quoted {s : String} {fuel : Nat} (hfits : s.toList.length < fuel)
    (rest : List Char) :
    textBody fuel (s.toList.flatMap escape ++ '"' :: rest) = some (s, rest) := by
  simp only [textBody, quotedBody_flatMap hfits, Option.map_some, String.ofList_toList]

/-- Every character of a text takes at least one inside quotes. -/
theorem length_le_flatMap_escape (cs : List Char) : cs.length ≤ (cs.flatMap escape).length := by
  have hnonempty (c : Char) : 1 ≤ (escape c).length := by
    rcases escape_cases c with ⟨hself, -⟩ | ⟨e, hescape, -⟩
    · simp [hself]
    · simp [hescape]
  induction cs with
  | nil => exact Nat.le_refl 0
  | cons c cs ih =>
    have := hnonempty c
    rw [List.flatMap_cons, List.length_append, List.length_cons]
    omega

/-! ## Fields in order -/

section
open Std

theorem put_last {name : String} {j : Json} {fields : List (String × Json)}
    (h : ∀ field ∈ fields, compare field.1 name = .lt) :
    put name j fields = fields ++ [(name, j)] := by
  induction fields with
  | nil => rfl
  | cons field fields ih =>
    have ⟨hfirst, hrest⟩ := List.forall_mem_cons.1 h
    have hafter : compare name field.1 = .gt := OrientedCmp.gt_iff_lt.2 hfirst
    simp only [put, hafter, ih hrest, List.cons_append]

theorem foldl_put_of_ascending {fields before : List (String × Json)}
    (h : (before ++ fields).Pairwise fun a b => compare a.1 b.1 = .lt) :
    fields.foldl (fun object (name, j) => put name j object) before = before ++ fields := by
  induction fields generalizing before with
  | nil => simp
  | cons field fields ih =>
    have hearlier : ∀ b ∈ before, compare b.1 field.1 = .lt := fun b hb =>
      (List.pairwise_append.1 h).2.2 b hb field List.mem_cons_self
    rw [List.append_cons] at h
    simp only [List.foldl_cons, put_last hearlier, ih h]
    exact (List.append_cons before field fields).symm

/-- Fields in ascending order are the fields of an object as they are. -/
theorem ofFields_of_ascending {fields : List (String × Json)}
    (h : fields.Pairwise fun a b => compare a.1 b.1 = .lt) : ofFields fields = .object fields := by
  rw [ofFields]
  exact congrArg Json.object (foldl_put_of_ascending (List.nil_append fields ▸ h))

end

/-! ## Values that survive as text -/

/-- A value that may be written down and read back: integers of 64 bits, signed or not, and
    fields in ascending order, as in every value that was read; doubles that are read back from
    their own text; and at most so many levels of arrays and objects. -/
inductive Portable : (depth : Nat) → Json → Prop where
  | null {depth : Nat} : Portable depth .null
  | bool {depth : Nat} (b : Bool) : Portable depth (.bool b)
  | integer {depth : Nat} {n : Int} (low : -9223372036854775808 ≤ n) (high : n < UInt64.size) :
    Portable depth (.integer n)
  | float {depth : Nat} {x : Binary64} (legible : Legible x) : Portable depth (.float x)
  | text {depth : Nat} (s : String) : Portable depth (.text s)
  | array {depth : Nat} {items : List Json} (all : ∀ item ∈ items, Portable depth item) :
    Portable (depth + 1) (.array items)
  | object {depth : Nat} {fields : List (String × Json)}
    (ascending : fields.Pairwise fun a b => compare a.1 b.1 = .lt)
    (all : ∀ field ∈ fields, Portable depth field.2) : Portable (depth + 1) (.object fields)

/-- The text of a value starts with a character that is no blank and closes no array. -/
theorem Portable.characters_eq_cons {depth : Nat} {j : Json} (h : Portable depth j) :
    ∃ c cs, characters j = c :: cs ∧ isBlank c = false ∧ c ≠ ']' := by
  have hnumeric {c : Char} (hc : Numeric c) : isBlank c = false ∧ c ≠ ']' :=
    ⟨hc.isBlank, hc.ne (by decide)⟩
  cases h with
  | null => exact ⟨'n', _, rfl, by decide⟩
  | bool b =>
    cases b with
    | false => exact ⟨'f', _, rfl, by decide⟩
    | true => exact ⟨'t', _, rfl, by decide⟩
  | @integer _ n _ _ =>
    cases htext : integerText n with
    | nil =>
      cases n with
      | ofNat n => exact absurd htext (Numeral.digits_ne_nil n)
      | negSucc n => cases htext
    | cons c cs =>
      exact ⟨c, cs, htext, hnumeric (numeric_of_mem_integerText c (htext ▸ List.mem_cons_self))⟩
  | float hlegible =>
    obtain ⟨c, cs, htext, hfirst⟩ := floatText_eq_cons hlegible
    exact ⟨c, cs, htext, hnumeric hfirst⟩
  | text s => exact ⟨'"', _, rfl, by decide⟩
  | @array _ items _ => cases items <;> exact ⟨'[', _, rfl, by decide⟩
  | @object _ fields _ _ => cases fields <;> exact ⟨'\x7b', _, rfl, by decide⟩

/-! ## Reading values back -/

/-- Whether a value is read back in front of whatever ends a number, by a reader that may take as
    many steps as the value has characters. -/
def ReadsBack (depth : Nat) (j : Json) : Prop :=
  ∀ fuel rest, (characters j).length ≤ fuel → Ends rest →
    value fuel depth (characters j ++ rest) = some (j, rest)

/-- An item ends where the rest of its array begins. -/
theorem ends_moreItems (more : List Json) (rest : List Char) : Ends (moreItems more ++ rest) := by
  cases more with
  | nil => exact Ends.cons (by decide) (by decide) (by decide) (by decide) _
  | cons item more => exact Ends.cons (by decide) (by decide) (by decide) (by decide) _

theorem ends_moreFields (more : List (String × Json)) (rest : List Char) :
    Ends (moreFields more ++ rest) := by
  cases more with
  | nil => exact Ends.cons (by decide) (by decide) (by decide) (by decide) _
  | cons field more => exact Ends.cons (by decide) (by decide) (by decide) (by decide) _

section
variable {depth fuel : Nat} {rest : List Char}

/-- The items of an array are read back one after the other. -/
theorem items_characters {item : Json} {more : List Json}
    (hall : ∀ j ∈ item :: more, ReadsBack depth j)
    (hfits : (characters item).length + (moreItems more).length ≤ fuel) :
    items fuel depth (characters item ++ (moreItems more ++ rest)) = some (item :: more, rest) := by
  -- Each item takes a unit of fuel, which the comma or the bracket behind it pays for.
  induction more generalizing item fuel with
  | nil =>
    obtain ⟨hfirst, -⟩ := List.forall_mem_cons.1 hall
    cases fuel with
    | zero => exact absurd hfits (by simp [moreItems])
    | succ fuel =>
      simp only [moreItems, List.length_cons, List.length_nil] at hfits
      have hfound := hfirst fuel (moreItems [] ++ rest) (by omega) (ends_moreItems [] rest)
      have hbracket : skipBlank (moreItems [] ++ rest) = ']' :: rest :=
        skipBlank_cons (by decide) rest
      simp only [items, hfound, Option.bind_eq_bind, Option.bind_some, hbracket]
  | cons next more ih =>
    have ⟨hfirst, hothers⟩ := List.forall_mem_cons.1 hall
    cases fuel with
    | zero => exact absurd hfits (by simp [moreItems])
    | succ fuel =>
      simp only [moreItems, List.length_cons, List.length_append] at hfits
      have hfound := hfirst fuel (moreItems (next :: more) ++ rest) (by omega)
        (ends_moreItems (next :: more) rest)
      have htail : items fuel depth (characters next ++ (moreItems more ++ rest)) =
          some (next :: more, rest) := ih hothers (by omega)
      have hcomma : skipBlank (moreItems (next :: more) ++ rest) =
          ',' :: (characters next ++ (moreItems more ++ rest)) := by
        rw [moreItems, List.cons_append, List.append_assoc, skipBlank_cons (by decide)]
      simp only [items, hfound, Option.bind_eq_bind, Option.bind_some, hcomma, htail,
        Option.map_some]

/-- A text takes more characters inside quotes than by itself, by the quotes at least. -/
theorem length_quoted_gt (s : String) : s.toList.length + 1 < (quoted s).length := by
  have hescapes := length_le_flatMap_escape s.toList
  rw [quoted, List.length_cons, List.length_append, List.length_singleton]
  omega

theorem skipBlank_quoted (s : String) (cs : List Char) :
    skipBlank (quoted s ++ cs) = '"' :: (s.toList.flatMap escape ++ '"' :: cs) := by
  rw [quoted, List.cons_append, List.append_assoc, skipBlank_cons (by decide)]
  rfl

theorem word_cons (c : Char) (cs : List Char) : word [c] (c :: cs) = some cs := by simp [word]

/-- The fields of an object are read back one after the other. -/
theorem fields_characters {name : String} {j : Json} {more : List (String × Json)}
    (hall : ∀ field ∈ (name, j) :: more, ReadsBack depth field.2)
    (hfits : (quoted name).length + (characters j).length + (moreFields more).length ≤ fuel) :
    fields fuel depth (quoted name ++ ':' :: (characters j ++ (moreFields more ++ rest))) =
      some ((name, j) :: more, rest) := by
  have hcolon (cs : List Char) : skipBlank (':' :: cs) = ':' :: cs := skipBlank_cons (by decide) cs
  induction more generalizing name j fuel with
  | nil =>
    have hfirst : ReadsBack depth j := (List.forall_mem_cons.1 hall).1
    have hsize := length_quoted_gt name
    cases fuel with
    | zero => omega
    | succ fuel =>
      simp only [moreFields, List.length_cons, List.length_nil] at hfits
      have hnamed (cs : List Char) := textBody_quoted (show name.toList.length < fuel by omega) cs
      have hfound := hfirst fuel (moreFields [] ++ rest) (by omega) (ends_moreFields [] rest)
      have hbrace : skipBlank (moreFields [] ++ rest) = '\x7d' :: rest :=
        skipBlank_cons (by decide) rest
      simp only [fields, skipBlank_quoted, word_cons, hnamed, hcolon, hfound, hbrace,
        Option.bind_eq_bind, Option.bind_some]
  | cons next more ih =>
    obtain ⟨nextName, nextValue⟩ := next
    have hfirst : ReadsBack depth j := (List.forall_mem_cons.1 hall).1
    have hothers := (List.forall_mem_cons.1 hall).2
    have hsize := length_quoted_gt name
    cases fuel with
    | zero => omega
    | succ fuel =>
      simp only [moreFields, List.length_cons, List.length_append] at hfits
      have hnamed (cs : List Char) := textBody_quoted (show name.toList.length < fuel by omega) cs
      have hfound := hfirst fuel (moreFields ((nextName, nextValue) :: more) ++ rest) (by omega)
        (ends_moreFields _ rest)
      have hcomma : skipBlank (moreFields ((nextName, nextValue) :: more) ++ rest) =
          ',' :: (quoted nextName ++ ':' ::
            (characters nextValue ++ (moreFields more ++ rest))) := by
        rw [moreFields, List.cons_append, skipBlank_cons (by decide)]
        simp
      have htail : fields fuel depth
          (quoted nextName ++ ':' :: (characters nextValue ++ (moreFields more ++ rest))) =
          some ((nextName, nextValue) :: more, rest) := ih hothers (by omega)
      simp only [fields, skipBlank_quoted, word_cons, hnamed, hcolon, hfound, hcomma, htail,
        Option.bind_eq_bind, Option.bind_some, Option.map_some]

end

/-- A number in front of which no blanks are skipped. -/
theorem readsBack_of_number {depth : Nat} {j : Json} {c : Char} {cs : List Char}
    (htext : characters j = c :: cs) (hfirst : Numeric c)
    (h : number (characters j) = some (j, [])) : ReadsBack depth j := by
  intro fuel rest hfits hends
  cases fuel with
  | zero => exact absurd hfits (by simp [htext])
  | succ fuel =>
    have hwhole := (number_local _ _ _ h).2 rest hends
    rw [htext] at hwhole ⊢
    rw [List.cons_append, value_of_numeric hfirst]
    exact hwhole

theorem readsBack_text (depth : Nat) (s : String) : ReadsBack depth (.text s) := by
  intro fuel rest hfits hends
  have hsize : s.toList.length + 1 < (characters (.text s)).length := length_quoted_gt s
  cases fuel with
  | zero => omega
  | succ fuel =>
    have hopening : skipBlank (characters (.text s) ++ rest) =
        '"' :: (s.toList.flatMap escape ++ '"' :: rest) := skipBlank_quoted s rest
    simp only [value, hopening, textBody_quoted (show s.toList.length < fuel by omega),
      Option.map_some]

theorem readsBack_array {depth : Nat} {elements : List Json}
    (hportable : ∀ j ∈ elements, Portable depth j) (hall : ∀ j ∈ elements, ReadsBack depth j) :
    ReadsBack (depth + 1) (.array elements) := by
  intro fuel rest hfits hends
  cases elements with
  | nil =>
    cases fuel with
    | zero => exact absurd hfits (by simp [characters])
    | succ fuel => rfl
  | cons item more =>
    obtain ⟨c, cs, htext, hvisible, hother⟩ :=
      (hportable item List.mem_cons_self).characters_eq_cons
    simp only [characters, List.length_cons, List.length_append] at hfits
    cases fuel with
    | zero => omega
    | succ fuel =>
      have hopening : skipBlank (characters (.array (item :: more)) ++ rest) =
          '[' :: (characters item ++ (moreItems more ++ rest)) := by
        rw [characters, List.cons_append, List.append_assoc, skipBlank_cons (by decide)]
      have hinside : skipBlank (characters item ++ (moreItems more ++ rest)) =
          c :: (cs ++ (moreItems more ++ rest)) := by
        rw [htext, List.cons_append, skipBlank_cons hvisible]
      have hfound : items fuel depth (c :: (cs ++ (moreItems more ++ rest))) =
          some (item :: more, rest) := by
        rw [← List.cons_append, ← htext]
        exact items_characters hall (by omega)
      simp only [value, hopening, hinside]
      -- The first item does not start with the closing bracket, so the array is not empty.
      split
      · rename_i hsame
        cases hsame
        exact absurd rfl hother
      · simp only [hfound, Option.map_some]

theorem readsBack_object {depth : Nat} {members : List (String × Json)}
    (hascending : members.Pairwise fun a b => compare a.1 b.1 = .lt)
    (hall : ∀ field ∈ members, ReadsBack depth field.2) :
    ReadsBack (depth + 1) (.object members) := by
  intro fuel rest hfits hends
  cases members with
  | nil =>
    cases fuel with
    | zero => exact absurd hfits (by simp [characters])
    | succ fuel => rfl
  | cons field more =>
    obtain ⟨name, j⟩ := field
    simp only [characters, List.length_cons, List.length_append] at hfits
    cases fuel with
    | zero => omega
    | succ fuel =>
      have hopening : skipBlank (characters (.object ((name, j) :: more)) ++ rest) =
          '\x7b' :: (quoted name ++ ':' :: (characters j ++ (moreFields more ++ rest))) := by
        rw [characters, List.cons_append, skipBlank_cons (by decide)]
        simp
      have hinside : skipBlank (quoted name ++ ':' :: (characters j ++ (moreFields more ++ rest))) =
          quoted name ++ ':' :: (characters j ++ (moreFields more ++ rest)) := by
        rw [quoted, List.cons_append, skipBlank_cons (by decide)]
      have hfound : fields fuel depth
          (quoted name ++ ':' :: (characters j ++ (moreFields more ++ rest))) =
          some ((name, j) :: more, rest) := fields_characters hall (by omega)
      simp only [value, hopening, hinside]
      -- A name starts with a quote, so the object is not empty.
      split
      · rename_i hsame
        cases hsame
      · simp only [hfound, Option.map_some, ofFields_of_ascending hascending]

/-- Every value that survives as text is read back. -/
theorem Portable.readsBack {depth : Nat} {j : Json} (h : Portable depth j) : ReadsBack depth j := by
  -- A fixed word takes one unit of fuel, which is there since the word is not empty.
  have hliteral {j : Json} {depth : Nat} (h : ∀ fuel rest,
      value (fuel + 1) depth (characters j ++ rest) = some (j, rest))
      (hnonempty : characters j ≠ []) : ReadsBack depth j := by
    intro fuel rest hfits hends
    cases fuel with
    | zero => exact absurd (List.eq_nil_of_length_eq_zero (Nat.le_zero.1 hfits)) hnonempty
    | succ fuel => exact h fuel rest
  induction h with
  | null => exact hliteral (fun fuel rest => rfl) nofun
  | bool b =>
    cases b with
    | false => exact hliteral (fun fuel rest => rfl) nofun
    | true => exact hliteral (fun fuel rest => rfl) nofun
  | integer hlow hhigh =>
    have hportable : Portable 0 _ := .integer hlow hhigh
    obtain ⟨c, cs, htext, -⟩ := hportable.characters_eq_cons
    have hnumeric := numeric_of_mem_integerText c (htext ▸ List.mem_cons_self)
    exact readsBack_of_number htext hnumeric (number_integerText hlow hhigh)
  | float hlegible =>
    obtain ⟨c, cs, htext, hfirst⟩ := floatText_eq_cons hlegible
    exact readsBack_of_number htext hfirst (number_floatText hlegible)
  | text s => exact readsBack_text _ s
  | array hitems hall => exact readsBack_array hitems hall
  | object hascending _ hall => exact readsBack_object hascending hall

/-- A value that survives as text, and is nested no deeper than the reader goes, is read back. -/
theorem Portable.read?_render {j : Json} (h : Portable deepest j) : read? (render j) = some j := by
  have htext : (render j).toList = characters j := String.toList_ofList
  have hfound := h.readsBack (2 * (characters j).length + 2) [] (by omega) Ends.nil
  rw [List.append_nil] at hfound
  simp only [read?, htext, hfound]
  rfl

end LedgerQuery.Json
