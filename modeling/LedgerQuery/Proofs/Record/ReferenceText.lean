/-
  LedgerQuery.Proofs.Record.ReferenceText

  The texts of references. A reference is read from any of its spellings, in which hexadecimal
  digits count in either case and the index may have a plus sign and zeros in front, and written in
  one of them (`Spelling.read`); any other text is refused, for the first of three faults that it
  has (`Refused.read`). Main statement: `reference_text_format`.
-/
import Mathlib.Data.List.TakeWhile
import LedgerQuery.Proofs.Record.Reference
import LedgerQuery.Proofs.Text.Spelling

namespace LedgerQuery.RecordRef

/-! ## Parts of a text -/

/-- The parts of a text before and after its last colon. -/
def Parts (text front : String) (index : List Char) : Prop :=
  text = front ++ ":" ++ String.ofList index ∧ ':' ∉ index

section Parts

variable {text front : String} {index : List Char} {n : Nat}

theorem exists_parts (h : ':' ∈ text.toList) : ∃ front index, Parts text front index := by
  -- From the end, the last colon is the first.
  obtain ⟨after, before, hsplit, hnone⟩ := List.eq_append_cons_of_mem (List.mem_reverse.2 h)
  refine ⟨String.ofList before.reverse, after.reverse, ?_, by simpa using hnone⟩
  rw [← String.toList_inj]
  simpa using congrArg List.reverse hsplit

theorem splitLast?_of_parts (h : Parts text front index) :
    splitLast? text = some (front, String.ofList index) := by
  rw [h.1]
  exact splitLast?_append front fun c hc => ne_of_mem_of_not_mem hc h.2

theorem splitLast?_eq_none (h : ':' ∉ text.toList) : splitLast? text = none := by
  have hall : text.toList.reverse.takeWhile (· ≠ ':') = text.toList.reverse :=
    List.takeWhile_eq_self_iff.2 fun c hc =>
      decide_eq_true (ne_of_mem_of_not_mem (List.mem_reverse.1 hc) h)
  simp only [splitLast?, hall, List.drop_length]

/-- If the index is a numeral, the outcome is that of the transaction. -/
theorem read_of_spelled (hparts : Parts text front index)
    (hspelled : Numeral.Spelled UInt32.size n index) :
    read text = (TransactionId.read front).map fun id => ⟨id, UInt32.ofNat n⟩ := by
  simp only [read, splitLast?_of_parts hparts, String.toList_ofList,
    Numeral.word32?_of_spelled hspelled]

end Parts

/-! ## Spellings -/

/-- A spelling of a reference: 64 hexadecimal digits in either case, and decimal digits for an index
    below 2^32, optionally with a plus sign. -/
structure Spelling where
  hex : List Char
  plus : Bool
  index : List Char
  length_hex : hex.length = 64
  hex_digits : ∀ c ∈ hex, c ∈ Hex.eitherCase
  index_ne_nil : index ≠ []
  index_digits : ∀ c ∈ index, c.isDigit = true
  index_lt : Numeral.value index < UInt32.size

namespace Spelling

/-- The text, with a colon between the parts. -/
def text (s : Spelling) : String :=
  String.ofList s.hex ++ ":" ++ String.ofList ((if s.plus then ['+'] else []) ++ s.index)

/-- A spelling names a reference by the digits of its transaction, whatever their case, and the
    value of its index. -/
def Names (s : Spelling) (r : RecordRef) : Prop :=
  Hex.digits r.transaction.bytes = s.hex.map Char.toLower ∧
    r.index.toNat = Numeral.value s.index

/-- The spelling with lower-case digits, without plus sign and without zeros in front. -/
def normal (s : Spelling) : Spelling :=
  have written : Numeral.stripped s.index = Numeral.digits (Numeral.value s.index) :=
    (Numeral.digits_value s.index_digits).symm
  { hex := s.hex.map Char.toLower
    plus := false
    index := Numeral.stripped s.index
    length_hex := (List.length_map _).trans s.length_hex
    hex_digits := by
      intro c hc
      obtain ⟨d, hd, rfl⟩ := List.mem_map.1 hc
      exact Hex.toLower_mem_eitherCase (s.hex_digits d hd)
    index_ne_nil := written ▸ Numeral.digits_ne_nil _
    index_digits := fun c hc => Numeral.isDigit_of_mem_digits (written ▸ hc)
    index_lt := by
      rw [written, Numeral.value_digits]
      exact s.index_lt }

variable {s : Spelling} {r : RecordRef}

/-- A reference is written in the normal form of its spellings. -/
theorem Names.render_eq (h : s.Names r) : r.render = s.normal.text := by
  rw [render, TransactionId.render, Hex.encode, h.1, h.2, Numeral.render,
    Numeral.digits_value s.index_digits]
  rfl

/-- The index of a spelling is a numeral. -/
theorem spelled_index (s : Spelling) : Numeral.Spelled UInt32.size (Numeral.value s.index)
    ((if s.plus then ['+'] else []) ++ s.index) := by
  refine ⟨_, s.index, rfl, ?_, ⟨s.index_ne_nil, s.index_digits⟩, rfl, s.index_lt⟩
  cases s.plus
  · exact .inl rfl
  · exact .inr rfl

/-- Every spelling is read as a reference that it names. -/
theorem read (s : Spelling) : ∃ r, s.Names r ∧ RecordRef.read s.text = .ok r := by
  have heven : s.hex.length % 2 = 0 := by rw [s.length_hex]
  obtain ⟨bytes, hread, hwritten, hcount⟩ := Hex.decode_ofList s.hex_digits heven
  have hlength : bytes.length = 32 := by
    rw [s.length_hex] at hcount
    omega
  have hparts : Parts s.text (String.ofList s.hex) ((if s.plus then ['+'] else []) ++ s.index) :=
    ⟨rfl, s.spelled_index.colon_not_mem⟩
  refine ⟨⟨⟨bytes, hlength⟩, UInt32.ofNat (Numeral.value s.index)⟩,
    ⟨hwritten, UInt32.toNat_ofNat_of_lt' s.index_lt⟩, ?_⟩
  rw [read_of_spelled hparts s.spelled_index]
  simp only [TransactionId.read, hread, hlength, dite_true]
  rfl

end Spelling

/-! ## Refused texts -/

/-- What a text is refused for. Without a colon, or if no numeral below 2^32 stands after the last
    one, it is malformed. Else what stands before that is no hexadecimal text, if it has an odd
    number of bytes, or for its first byte that is no digit. Else it stands for another number of
    bytes than 32. -/
inductive Refused (text : String) : RecordError → Prop where
  | noColon (h : ':' ∉ text.toList) : Refused text (.malformedReference text)
  | noIndex {front : String} {index : List Char} (parts : Parts text front index)
    (unspelled : ∀ n, ¬ Numeral.Spelled UInt32.size n index) :
    Refused text (.malformedReference text)
  | oddLength {front : String} {index : List Char} {n : Nat} (parts : Parts text front index)
    (spelled : Numeral.Spelled UInt32.size n index) (odd : (Utf8.encode front).length % 2 = 1) :
    Refused text (.invalidHex .oddLength)
  | noDigit {front : String} {index : List Char} {n : Nat} (parts : Parts text front index)
    (spelled : Numeral.Spelled UInt32.size n index) (even : (Utf8.encode front).length % 2 = 0)
    {before after : Bytes} {b : UInt8} (bytes : Utf8.encode front = before ++ b :: after)
    (digits : ∀ d ∈ before, Hex.IsDigit d) (fault : ¬ Hex.IsDigit b) :
    Refused text (.invalidHex (.invalidDigit b before.length))
  | length {front : String} {index : List Char} {n : Nat} (parts : Parts text front index)
    (spelled : Numeral.Spelled UInt32.size n index) {count : Nat}
    (bytes : (Utf8.encode front).length = 2 * count)
    (digits : ∀ b ∈ Utf8.encode front, Hex.IsDigit b) (other : count ≠ 32) :
    Refused text (.invalidLength 32 count)

variable {text : String} {e : RecordError}

/-- A text that is refused for something is not read, and the error says what for. -/
theorem Refused.read (h : Refused text e) : read text = .error e := by
  cases h with
  | noColon h => simp only [RecordRef.read, splitLast?_eq_none h]
  | @noIndex front index hparts hunspelled =>
    have hindex : Numeral.word32? index = none := by
      rw [Numeral.word32?, Option.map_eq_none_iff, Option.eq_none_iff_forall_not_mem]
      exact fun n hn => hunspelled n (Numeral.read?_eq_some_iff.1 hn)
    simp only [RecordRef.read, splitLast?_of_parts hparts, String.toList_ofList, hindex]
  | oddLength hparts hspelled hodd =>
    rw [read_of_spelled hparts hspelled, TransactionId.read, Hex.decode_of_odd hodd]
    rfl
  | noDigit hparts hspelled heven hbytes hbefore hfault =>
    rw [read_of_spelled hparts hspelled, TransactionId.read,
      Hex.decode_of_fault hbytes heven hbefore hfault]
    rfl
  | @length front index n hparts hspelled count hbytes hdigits' hother =>
    obtain ⟨hdigits, hcount⟩ := Hex.toList_of_isDigit hdigits'
    have heven : front.toList.length % 2 = 0 := by omega
    obtain ⟨decoded, hread, -, hdecoded⟩ := Hex.decode_ofList hdigits heven
    have hlength : decoded.length = count := by omega
    rw [String.ofList_toList] at hread
    rw [read_of_spelled hparts hspelled, TransactionId.read, hread]
    dsimp only
    rw [dif_neg (hlength ▸ hother), hlength]
    rfl

/-- Every text is a spelling, or refused for something. -/
theorem spelling_or_refused (text : String) :
    (∃ s : Spelling, s.text = text) ∨ ∃ e, Refused text e := by
  by_cases hcolon : ':' ∈ text.toList
  · obtain ⟨front, index, hparts⟩ := exists_parts hcolon
    by_cases hindex : ∃ n, Numeral.Spelled UInt32.size n index
    · obtain ⟨n, hspelled⟩ := hindex
      rcases Nat.mod_two_eq_zero_or_one (Utf8.encode front).length with heven | hodd
      · rcases Hex.digits_or_fault (Utf8.encode front) with
          hdigits' | ⟨before, b, after, hbytes, hbefore, hfault⟩
        · have hlength : (Utf8.encode front).length = 2 * ((Utf8.encode front).length / 2) := by
            omega
          by_cases hcount : (Utf8.encode front).length / 2 = 32
          · obtain ⟨hdigits, hchars⟩ := Hex.toList_of_isDigit hdigits'
            obtain ⟨sign, ds, rfl, hsign, ⟨hnonempty, hds⟩, rfl, hsmall⟩ := hspelled
            refine .inl ⟨⟨front.toList, decide (sign = ['+']), ds, by omega, hdigits, hnonempty,
              hds, hsmall⟩, ?_⟩
            rw [hparts.1, Spelling.text, String.ofList_toList]
            rcases hsign with rfl | rfl <;> rfl
          · exact .inr ⟨_, .length hparts hspelled hlength hdigits' hcount⟩
        · exact .inr ⟨_, .noDigit hparts hspelled heven hbytes hbefore hfault⟩
      · exact .inr ⟨_, .oddLength hparts hspelled hodd⟩
    · exact .inr ⟨_, .noIndex hparts (not_exists.1 hindex)⟩
  · exact .inr ⟨_, .noColon hcolon⟩

/-! ## The format -/

/-- A spelling names one reference. -/
theorem Spelling.Names.eq {s : Spelling} {q r : RecordRef} (hq : s.Names q) (hr : s.Names r) :
    q = r :=
  render_inj.1 (hq.render_eq.trans hr.render_eq.symm)

/-- Exactly the spellings are read, each as the reference that it names; that is written in the
    normal form of its spellings, which is read as the same reference. Written references are read
    back, and tell references apart. Every other text is refused, for the fault that comes first. -/
theorem reference_text_format :
    (∀ s : Spelling, ∃ r, s.Names r ∧ read s.text = .ok r ∧
      r.render = s.normal.text ∧ read s.normal.text = .ok r) ∧
    (∀ text r, read text = .ok r ↔ ∃ s : Spelling, s.text = text ∧ s.Names r) ∧
    (∀ r, read r.render = .ok r) ∧
    (∀ q r : RecordRef, q.render = r.render ↔ q = r) ∧
    ∀ text e, read text = .error e ↔ Refused text e := by
  refine ⟨fun s => ?_, fun text r => ⟨fun h => ?_, ?_⟩, read_render, fun _ _ => render_inj,
    fun text e => ⟨fun h => ?_, Refused.read⟩⟩
  · obtain ⟨r, hnames, hread⟩ := s.read
    refine ⟨r, hnames, hread, hnames.render_eq, ?_⟩
    rw [← hnames.render_eq, read_render]
  · rcases spelling_or_refused text with ⟨s, rfl⟩ | ⟨e, hrefused⟩
    · obtain ⟨q, hnames, hread⟩ := s.read
      cases hread.symm.trans h
      exact ⟨s, rfl, hnames⟩
    · cases hrefused.read.symm.trans h
  · rintro ⟨s, rfl, hnames⟩
    obtain ⟨q, hq, hread⟩ := s.read
    rw [hread, hq.eq hnames]
  · rcases spelling_or_refused text with ⟨s, rfl⟩ | ⟨other, hrefused⟩
    · obtain ⟨q, -, hread⟩ := s.read
      cases hread.symm.trans h
    · cases hrefused.read.symm.trans h
      exact hrefused

end LedgerQuery.RecordRef
