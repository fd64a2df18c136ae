/-
  LedgerQuery.Proofs.Wire.Binary

  Binary forms are read back. A reader is described by what it takes from the front of any byte
  string: `Reads reader bytes x` composes along the fields of a record, so the form of a type is
  read back as soon as those of its parts are. Lengths are 64-bit words, which is why only byte
  strings shorter than 2^64 count.
-/
import LedgerQuery.Wire.Binary

namespace LedgerQuery

namespace Binary

/-! ## Words -/

@[simp] theorem length_littleEndian (width n : Nat) : (littleEndian width n).length = width := by
  induction width generalizing n with
  | zero => rfl
  | succ width ih => rw [littleEndian, List.length_cons, ih]

/-- The bytes of a number make up the number again, as far as they hold it. -/
theorem ofLittleEndian_littleEndian {width n : Nat} (h : n < Nat.pow 256 width) :
    ofLittleEndian (littleEndian width n) = n := by
  induction width generalizing n with
  | zero => exact (Nat.lt_one_iff.1 h).symm
  | succ width ih =>
    -- The first byte is the remainder by 256, the others make up the quotient.
    have hlower : (UInt8.ofNat (n % 256)).toNat = n % 256 := by simp
    have hhigher : n / 256 < Nat.pow 256 width := by
      have hpower : Nat.pow 256 (width + 1) = Nat.pow 256 width * 256 := rfl
      exact Nat.div_lt_of_lt_mul (by omega)
    rw [littleEndian, ofLittleEndian, hlower, ih hhigher]
    omega

theorem ofLittleEndian_lt (bytes : Bytes) : ofLittleEndian bytes < Nat.pow 256 bytes.length := by
  induction bytes with
  | nil => exact Nat.one_pos
  | cons b bytes ih =>
    have hsmall : b.toNat < 256 := b.toNat_lt
    have hpower : Nat.pow 256 (bytes.length + 1) = Nat.pow 256 bytes.length * 256 := rfl
    rw [ofLittleEndian, List.length_cons]
    omega

/-- A number made up of bytes has these bytes. -/
theorem littleEndian_ofLittleEndian (bytes : Bytes) :
    littleEndian bytes.length (ofLittleEndian bytes) = bytes := by
  induction bytes with
  | nil => rfl
  | cons b bytes ih =>
    have hsmall : b.toNat < 256 := b.toNat_lt
    have hlower : (b.toNat + 256 * ofLittleEndian bytes) % 256 = b.toNat := by omega
    have hhigher : (b.toNat + 256 * ofLittleEndian bytes) / 256 = ofLittleEndian bytes := by omega
    rw [ofLittleEndian, List.length_cons, littleEndian, hlower, hhigher, ih, UInt8.ofNat_toNat]

/-- Byte strings of one length make up different numbers, unless they are the same. -/
theorem ofLittleEndian_inj {a b : Bytes} (hlength : a.length = b.length) :
    ofLittleEndian a = ofLittleEndian b ↔ a = b := by
  refine ⟨fun h => ?_, fun h => h ▸ rfl⟩
  rw [← littleEndian_ofLittleEndian a, ← littleEndian_ofLittleEndian b, hlength, h]

theorem splitAt?_append (bytes rest : Bytes) :
    splitAt? bytes.length (bytes ++ rest) = some (bytes, rest) := by
  induction bytes with
  | nil => rfl
  | cons b bytes ih => simp only [List.cons_append, List.length_cons, splitAt?, ih, Option.map_some]

/-! ## Readers -/

/-- A reader that takes a value from its bytes and leaves what follows them. At least one byte
    is taken, which bounds the number of values in a list by the number of its bytes. -/
structure Reads {α : Type} (reader : Reader α) (bytes : Bytes) (x : α) : Prop where
  nonempty : bytes ≠ []
  taken : bytes.length < UInt64.size → ∀ rest, reader (bytes ++ rest) = some (x, rest)

section
variable {α β : Type} {reader : Reader α} {bytes more : Bytes} {x : α} {y : β}

/-- One value after the other. -/
theorem Reads.bind {next : α → Reader β} (hfirst : Reads reader bytes x)
    (hsecond : Reads (next x) more y) : Reads (reader >>= next) (bytes ++ more) y where
  nonempty := List.append_ne_nil_of_left_ne_nil hfirst.nonempty more
  taken hshort rest := by
    rw [List.length_append] at hshort
    have hhere := hfirst.taken (by omega) (more ++ rest)
    have hthere := hsecond.taken (by omega) rest
    rw [List.append_assoc]
    simp only [Bind.bind, StateT.bind, hhere, Option.bind_some, hthere]

/-- A value that settles what is left to do without further bytes. -/
theorem Reads.settle {next : α → Reader β} (hfirst : Reads reader bytes x)
    (hlast : ∀ rest, next x rest = some (y, rest)) : Reads (reader >>= next) bytes y where
  nonempty := hfirst.nonempty
  taken hshort rest := by
    have hhere := hfirst.taken hshort rest
    simp only [Bind.bind, StateT.bind, hhere, Option.bind_some, hlast]

theorem Reads.map (f : α → β) (hfirst : Reads reader bytes x) :
    Reads (f <$> reader) bytes (f x) where
  nonempty := hfirst.nonempty
  taken hshort rest := by
    have hhere := hfirst.taken hshort rest
    simp only [Functor.map, StateT.map, hhere, Bind.bind, Option.bind_some]
    rfl

theorem reads_take (hnonempty : bytes ≠ []) : Reads (take bytes.length) bytes bytes :=
  ⟨hnonempty, fun _ rest => splitAt?_append bytes rest⟩

theorem reads_word (width : Nat) {n : Nat} (hpositive : width ≠ 0) (h : n < Nat.pow 256 width) :
    Reads (word width) (littleEndian width n) n := by
  have hlength := length_littleEndian width n
  have hnonempty : littleEndian width n ≠ [] := fun hempty => by
    rw [hempty] at hlength
    exact hpositive hlength.symm
  have htaken := (reads_take hnonempty).map ofLittleEndian
  rwa [hlength, ofLittleEndian_littleEndian h] at htaken

theorem length_writeCase (n : Nat) : (writeCase n).length = 4 := length_littleEndian 4 n

theorem reads_case (n : Nat) (hsmall : n < UInt32.size := by decide) :
    Reads (word 4) (writeCase n) n := reads_word 4 (by decide) hsmall

/-- What is counted, after its count. It takes at least as many bytes as the count says. -/
theorem reads_counted {count : Nat} {next : Nat → Reader α} (hbound : count ≤ bytes.length)
    (hcounted : bytes.length < UInt64.size → ∀ rest, next count (bytes ++ rest) = some (x, rest)) :
    Reads (word 8 >>= next) (writeLength count ++ bytes) x where
  nonempty := List.append_ne_nil_of_left_ne_nil (fun hempty => by
    have hlength := length_littleEndian 8 count
    rw [writeLength] at hempty
    rw [hempty] at hlength
    cases hlength) bytes
  taken hshort rest := by
    rw [List.length_append] at hshort
    have hsmall : count < Nat.pow 256 8 := by
      rw [show Nat.pow 256 8 = UInt64.size from rfl]
      omega
    have hsize : (writeLength count).length < UInt64.size := by
      rw [writeLength, length_littleEndian]
      decide
    -- The count is read first, with all the rest behind it.
    have hhere := (reads_word 8 (by decide) hsmall).taken hsize (bytes ++ rest)
    have hthere := hcounted (by omega) rest
    rw [List.append_assoc]
    simp only [Bind.bind, StateT.bind, writeLength, hhere, Option.bind_some, hthere]

/-- A reader that may go as deep as there are bytes, of a value for which its own bytes do. -/
theorem reads_of_depth {ofBinary : Nat → Reader α}
    (hdeep : ∀ depth, bytes.length < depth → Reads (ofBinary depth) bytes x) :
    Reads (fun input => ofBinary (input.length + 1) input) bytes x where
  nonempty := (hdeep _ (Nat.lt_succ_self _)).nonempty
  taken hshort rest := by
    have henough : bytes.length < (bytes ++ rest).length + 1 := by
      rw [List.length_append]
      omega
    exact (hdeep _ henough).taken hshort rest

end

/-! ## Forms that lose nothing -/

/-- A type all of whose values are read back from their bytes. -/
class LosslessForm (α : Type) [BinaryForm α] : Prop where
  reads (x : α) : Reads read (write x) x

export LosslessForm (reads)

instance : LosslessForm UInt32 where
  reads n := by
    have number := (reads_word 4 (by decide) n.toNat_lt_size).map UInt32.ofNat
    rwa [UInt32.ofNat_toNat] at number

instance : LosslessForm UInt64 where
  reads n := by
    have number := (reads_word 8 (by decide) n.toNat_lt_size).map UInt64.ofNat
    rwa [UInt64.ofNat_toNat] at number

instance : LosslessForm Int64 where
  reads n := by
    have number := (reads_word 8 (by decide) n.toUInt64.toNat_lt_size).map fun k =>
      (⟨UInt64.ofNat k⟩ : Int64)
    rwa [UInt64.ofNat_toNat] at number

/-- A double is its bits, whatever they say. -/
instance : LosslessForm Binary64 where
  reads x := (reads x.bits).map Binary64.mk

instance : LosslessForm Bool where
  reads b := by
    cases b with
    | false => exact (reads_word (n := 0) 1 (by decide) (by decide)).settle fun rest => rfl
    | true => exact (reads_word (n := 1) 1 (by decide) (by decide)).settle fun rest => rfl

instance : LosslessForm String where
  reads text := by
    refine reads_counted (Nat.le_refl _) fun short rest => ?_
    have bytes := splitAt?_append (Utf8.encode text) rest
    simp only [take, Bind.bind, StateT.bind, bytes, Option.bind_some, Utf8.decode?_encode]
    rfl

section
variable {α : Type} [BinaryForm α]

instance [LosslessForm α] : LosslessForm (Option α) where
  reads
    | none => (reads_word (n := 0) 1 (by decide) (by decide)).settle fun rest => rfl
    | some x =>
      (reads_word (n := 1) 1 (by decide) (by decide)).bind ((reads x).settle fun rest => rfl)

theorem readMany_flatMap {xs : List α} (hall : ∀ x ∈ xs, Reads read (write x) x)
    (hshort : (xs.flatMap write).length < UInt64.size) (rest : Bytes) :
    readMany xs.length (xs.flatMap write ++ rest) = some (xs, rest) := by
  induction xs with
  | nil => rfl
  | cons x xs ih =>
    have ⟨hfirst, hothers⟩ := List.forall_mem_cons.1 hall
    rw [List.flatMap_cons, List.length_append] at hshort
    have hhere := hfirst.taken (by omega) (xs.flatMap write ++ rest)
    have hthere := ih hothers (by omega)
    rw [List.flatMap_cons, List.append_assoc, List.length_cons]
    simp only [readMany, Bind.bind, StateT.bind, hhere, Option.bind_some, hthere]
    rfl

theorem length_le_flatMap_write {xs : List α} (hall : ∀ x ∈ xs, Reads read (write x) x) :
    xs.length ≤ (xs.flatMap write).length := by
  induction xs with
  | nil => exact Nat.le_refl 0
  | cons x xs ih =>
    have ⟨hfirst, hothers⟩ := List.forall_mem_cons.1 hall
    have hhere := List.length_pos_iff.2 hfirst.nonempty
    have hthere := ih hothers
    rw [List.flatMap_cons, List.length_append, List.length_cons]
    omega

/-- A list is read back if all of its members are. -/
theorem reads_list {xs : List α} (hall : ∀ x ∈ xs, Reads read (write x) x) :
    Reads read (write xs) xs :=
  reads_counted (length_le_flatMap_write hall) (readMany_flatMap hall)

instance [LosslessForm α] : LosslessForm (List α) where
  reads _ := reads_list fun x _ => reads x

end

section
variable {α : Type} {x : α}

/-- What is written as text is read back if its text is. -/
theorem reads_textual {render : α → String} {read? : String → Option α}
    (h : read? (render x) = some x) :
    Reads (textual render read?).read ((textual render read?).write x) x :=
  (reads (render x)).settle fun rest => by rw [h]; rfl

/-- Each of a list of cases is read back from its number. -/
theorem reads_listed [BEq α] [LawfulBEq α] {cases : List α} (hknown : x ∈ cases)
    (hfew : cases.length ≤ UInt32.size) :
    Reads (listed cases).read ((listed cases).write x) x := by
  have hplace : cases.idxOf x < cases.length := List.idxOf_lt_length_of_mem hknown
  have hfound : cases[cases.idxOf x]? = some x := by
    rw [List.getElem?_eq_getElem hplace, List.getElem_idxOf]
  exact (reads_case _ (by omega)).settle fun rest => by rw [hfound]; rfl

end

end Binary

end LedgerQuery
