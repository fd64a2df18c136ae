/-
  LedgerQuery.Proofs.Wire.Damage

  Damaged frames are refused. Bytes of a frame that arrive changed, as many as they are and in the
  place where they were, are noticed if they are the tag, if they belong to the checksum, or if they
  lie within four bytes of the payload. The tag is not covered by the checksum; the payload itself
  tells which one it has to be (`tag_of_read`). Main statement: `damage_detected`.
-/
import LedgerQuery.Proofs.Hash.Crc32
import LedgerQuery.Proofs.Wire.Frame
import LedgerQuery.Proofs.Wire.Prefix

namespace LedgerQuery

open Binary

/-! ## Damage -/

/-- A byte string arrives changed, but at its length and not outside a window. -/
structure DamagedWithin (start size : Nat) (sent received : Bytes) : Prop where
  length : received.length = sent.length
  ne : received ≠ sent
  outside : ∀ i, i < start ∨ start + size ≤ i → received[i]? = sent[i]?

namespace DamagedWithin

variable {start size skipped : Nat} {sent received : Bytes}

/-- What ends before the window arrives as it was. -/
theorem take_eq (h : DamagedWithin start size sent received) {count : Nat}
    (hcount : count ≤ start) : received.take count = sent.take count := by
  refine List.ext_getElem? fun i => ?_
  rw [List.getElem?_take, List.getElem?_take]
  split
  · exact h.outside i (.inl (by omega))
  · rfl

/-- What starts after the window arrives as it was. -/
theorem drop_eq (h : DamagedWithin start size sent received) (hskipped : start + size ≤ skipped) :
    received.drop skipped = sent.drop skipped := by
  refine List.ext_getElem? fun i => ?_
  rw [List.getElem?_drop, List.getElem?_drop]
  exact h.outside _ (.inr (by omega))

/-- Bytes in front of the window may be left out. -/
theorem drop (h : DamagedWithin (skipped + start) size sent received) :
    DamagedWithin start size (sent.drop skipped) (received.drop skipped) where
  length := by rw [List.length_drop, List.length_drop, h.length]
  ne hsame := h.ne <| by
    have hfront := h.take_eq (Nat.le_add_right skipped start)
    rw [← List.take_append_drop skipped received, hfront, hsame, List.take_append_drop]
  outside i hi := by
    rw [List.getElem?_drop, List.getElem?_drop]
    exact h.outside _ (by omega)

/-- The window does not arrive as it was. -/
theorem window_ne (h : DamagedWithin start size sent received) :
    (received.drop start).take size ≠ (sent.drop start).take size := by
  intro hsame
  have hback := h.drop_eq (Nat.le_refl _)
  rw [← List.drop_drop, ← List.drop_drop] at hback
  refine h.ne ?_
  rw [← List.take_append_drop start received, ← List.take_append_drop size (received.drop start),
    hsame, hback, h.take_eq (Nat.le_refl _), List.take_append_drop, List.take_append_drop]

/-- Bytes that are replaced by as many others. -/
theorem of_replaced {bytes : Bytes} (hlength : bytes.length = size)
    (hinside : start + size ≤ sent.length) (hne : bytes ≠ (sent.drop start).take size) :
    DamagedWithin start size sent (sent.take start ++ bytes ++ sent.drop (start + size)) := by
  have hfront : (sent.take start).length = start := List.length_take_of_le (by omega)
  constructor
  · rw [List.length_append, List.length_append, hfront, hlength, List.length_drop]
    omega
  · intro hsame
    have hwindow := congrArg (fun whole : Bytes => (whole.drop start).take size) hsame
    rw [List.append_assoc, List.drop_left' hfront, List.take_left' hlength] at hwindow
    exact hne hwindow
  · intro i hi
    rcases hi with hbefore | hafter
    · rw [List.append_assoc, List.getElem?_append_left (by omega), List.getElem?_take_of_lt hbefore]
    · rw [List.getElem?_append_right (by rw [List.length_append]; omega), List.getElem?_drop,
        List.length_append, hfront, hlength, Nat.add_sub_cancel' hafter]

end DamagedWithin

/-- Damage within four bytes changes the checksum. -/
theorem Crc32.checksum_ne_of_damaged {start : Nat} {sent received : Bytes}
    (h : DamagedWithin start 4 sent received) : checksum received ≠ checksum sent := by
  have hparts (bytes : Bytes) : bytes =
      bytes.take start ++ (bytes.drop start).take 4 ++ bytes.drop (start + 4) := by
    rw [← List.drop_drop, List.append_assoc, List.take_append_drop, List.take_append_drop]
  have hwindows : ((received.drop start).take 4).length = ((sent.drop start).take 4).length := by
    rw [List.length_take, List.length_take, List.length_drop, List.length_drop, h.length]
  rw [hparts received, hparts sent, h.take_eq (Nat.le_refl _), h.drop_eq (Nat.le_refl _)]
  exact checksum_ne hwindows (List.length_take_le _ _) h.window_ne

/-! ## Tags -/

namespace Message

/-- The tags of the cases, in the order of their numbers. -/
def tags : List UInt8 := [1, 2, 3, 4, 255]

/-- The number of a case comes first in a payload, and it settles the tag of what is read. -/
theorem tag_of_read {number : Nat} {bytes more rest : Bytes} {found : Message}
    (hnumber : word 4 bytes = some (number, more))
    (h : (BinaryForm.read : Reader Message) bytes = some (found, rest)) :
    tags[number]? = some found.tag := by
  obtain ⟨⟨k, after⟩, hk, h⟩ := Option.bind_eq_some_iff.1 h
  rw [hnumber] at hk
  cases hk
  -- One case for each number, and the failure for all others.
  dsimp only at h
  split at h
  · obtain ⟨⟨query, _⟩, -, hlast⟩ := Option.bind_eq_some_iff.1 h
    cases hlast
    rfl
  · obtain ⟨⟨page, _⟩, -, hlast⟩ := Option.bind_eq_some_iff.1 h
    cases hlast
    rfl
  · obtain ⟨⟨query, _⟩, -, hlast⟩ := Option.bind_eq_some_iff.1 h
    cases hlast
    rfl
  · obtain ⟨⟨page, _⟩, -, h⟩ := Option.bind_eq_some_iff.1 h
    obtain ⟨⟨feed, _⟩, -, hlast⟩ := Option.bind_eq_some_iff.1 h
    cases hlast
    rfl
  · obtain ⟨⟨code, _⟩, -, h⟩ := Option.bind_eq_some_iff.1 h
    obtain ⟨⟨message, _⟩, -, hlast⟩ := Option.bind_eq_some_iff.1 h
    cases hlast
    rfl
  · cases h

/-- The payload of a message starts with the number of its case. -/
theorem exists_number (m : Message) :
    ∃ number more, word 4 (write m) = some (number, more) ∧ tags[number]? = some m.tag := by
  have hword (number : Nat) (hsmall : number < UInt32.size) (more : Bytes) :
      word 4 (writeCase number ++ more) = some (number, more) :=
    (reads_case number hsmall).taken (by rw [length_writeCase]; decide) more
  cases m with
  | queryRequest query => exact ⟨0, write query, hword 0 (by decide) _, rfl⟩
  | queryResponse page => exact ⟨1, write page, hword 1 (by decide) _, rfl⟩
  | subscribeRequest query => exact ⟨2, write query, hword 2 (by decide) _, rfl⟩
  | subscribeAck page feed =>
    refine ⟨3, write page ++ write feed, ?_, rfl⟩
    show word 4 (writeCase 3 ++ write page ++ write feed) = _
    rw [List.append_assoc]
    exact hword 3 (by decide) _
  | error code message =>
    refine ⟨4, write code ++ write message, ?_, rfl⟩
    show word 4 (writeCase 4 ++ write code ++ write message) = _
    rw [List.append_assoc]
    exact hword 4 (by decide) _

end Message

namespace Codec

/-- A payload is not read under the tag of another message. -/
theorem exists_error_of_tag_ne {m : Message} {tag : UInt8} (h : tag ≠ m.tag) :
    ∃ e, decodePayload tag (write m) = .error e := by
  cases hread : decodePayload tag (write m) with
  | error e => exact ⟨e, rfl⟩
  | ok found =>
    obtain ⟨htag, rest, hfound⟩ := decodePayload_eq_ok_iff.1 hread
    obtain ⟨number, more, hnumber, hm⟩ := m.exists_number
    rw [Message.tag_of_read hnumber hfound, Option.some_inj, htag] at hm
    exact absurd hm h

/-! ## Frames -/

variable {c : Codec} {m : Message} {sent received : Bytes}

theorem complete_frame {tag : UInt8} {payload : Bytes}
    (hcounted : payload.length < UInt32.size - countedHeader) : Complete (frame tag payload) := by
  have hword := take_frame tag payload []
  have hfits : payload.length + countedHeader < UInt32.size := by
    rw [countedHeader] at hcounted ⊢
    omega
  rw [List.append_nil] at hword
  constructor
  · rw [length_frame]
    exact Nat.le_add_left _ _
  · rw [hword, ofBigEndian_bigEndian, UInt32.toNat_ofNat_of_lt' hfits, length_frame, headerLength,
      countedHeader]
    omega

/-- A frame whose length word arrives is as long as it tells. -/
theorem Complete.of_damaged {start size : Nat} (h : Complete sent)
    (hdamaged : DamagedWithin start size sent received) (hstart : 4 ≤ start) :
    Complete received where
  header := by rw [hdamaged.length]; exact h.header
  length := by rw [hdamaged.length, hdamaged.take_eq hstart]; exact h.length

/-- A frame that arrives damaged behind its length word is read up to the checksum. -/
theorem decode_damaged {start size : Nat} (hverify : c.verifyChecksums = true)
    (hsent : c.encode m = .ok sent) (hcounted : (write m).length < UInt32.size - countedHeader)
    (hdamaged : DamagedWithin start size sent received) (hstart : 4 ≤ start) :
    c.decode received =
      if Crc32.checksum (received.drop headerLength) ≠ ofBigEndian ((received.drop 5).take 4) then
        .error (.checksumMismatch (ofBigEndian ((received.drop 5).take 4))
          (Crc32.checksum (received.drop headerLength)))
      else (decodePayload ((received.drop 4).headD 0) (received.drop headerLength)).map
        fun m => (m, received.length) := by
  have hsize := le_of_encode hsent
  obtain rfl := eq_frame_of_encode hsent
  have hadmitted : ¬ c.maxMessageSize.toNat < received.length - headerLength := by
    rw [hdamaged.length, length_frame]
    omega
  rw [((complete_frame hcounted).of_damaged hdamaged hstart).decode_eq, if_neg hadmitted]
  simp only [hverify, true_and]

/-- The parts of a frame behind its length word. -/
theorem parts_of_encode (hsent : c.encode m = .ok sent) :
    (sent.drop 4).headD 0 = m.tag ∧
      (sent.drop 5).take 4 = bigEndian (Crc32.checksum (write m)) ∧
      sent.drop headerLength = write m := by
  have htag := headD_drop_frame m.tag (write m) []
  have hfield := take_drop_frame m.tag (write m) []
  have hpayload := drop_frame m.tag (write m) []
  rw [List.append_nil, ← eq_frame_of_encode hsent] at htag hfield hpayload
  rw [List.append_nil] at hpayload
  exact ⟨htag, hfield, hpayload⟩

section
variable (hverify : c.verifyChecksums = true) (hsent : c.encode m = .ok sent)
  (hcounted : (write m).length < UInt32.size - countedHeader)
include hverify hsent hcounted

theorem decode_damaged_tag (hdamaged : DamagedWithin 4 1 sent received) :
    ∃ e, c.decode received = .error e := by
  obtain ⟨htag, hfield, hpayload⟩ := parts_of_encode hsent
  have hlength : sent.length = (write m).length + 9 := by
    rw [eq_frame_of_encode hsent, length_frame, headerLength]
  have hfirst {bytes : Bytes} (h : bytes.length = sent.length) :
      (bytes.drop 4).take 1 = [(bytes.drop 4).headD 0] := by
    cases hdrop : bytes.drop 4 with
    | nil =>
      have hshort := List.drop_eq_nil_iff.1 hdrop
      omega
    | cons first rest => rfl
  have hne : (received.drop 4).headD 0 ≠ m.tag := by
    have hwindow := hdamaged.window_ne
    rw [hfirst hdamaged.length, hfirst rfl, htag] at hwindow
    exact fun hsame => hwindow (by rw [hsame])
  have hfield' : (received.drop 5).take 4 = bigEndian (Crc32.checksum (write m)) := by
    rw [hdamaged.drop_eq (Nat.le_refl 5), hfield]
  have hpayload' : received.drop headerLength = write m := by
    rw [hdamaged.drop_eq (by decide), hpayload]
  -- The checksum does not cover the tag, so it is right.
  obtain ⟨e, he⟩ := exists_error_of_tag_ne hne
  rw [decode_damaged hverify hsent hcounted hdamaged (Nat.le_refl 4), hpayload', hfield',
    ofBigEndian_bigEndian, if_neg fun h => h rfl, he]
  exact ⟨e, rfl⟩

theorem decode_damaged_checksum (hdamaged : DamagedWithin 5 4 sent received) :
    c.decode received = .error (.checksumMismatch (ofBigEndian ((received.drop 5).take 4))
      (Crc32.checksum (write m))) := by
  obtain ⟨-, hfield, hpayload⟩ := parts_of_encode hsent
  have hpayload' : received.drop headerLength = write m := by
    rw [hdamaged.drop_eq (by decide), hpayload]
  have hlength : ((received.drop 5).take 4).length = 4 := by
    have hwhole := length_frame m.tag (write m)
    rw [headerLength, ← eq_frame_of_encode hsent, ← hdamaged.length] at hwhole
    rw [List.length_take, List.length_drop]
    omega
  -- Four other bytes make up another word.
  have hne : Crc32.checksum (write m) ≠ ofBigEndian ((received.drop 5).take 4) := fun hsame =>
    hdamaged.window_ne (by rw [hfield, hsame, bigEndian_ofBigEndian hlength])
  rw [decode_damaged hverify hsent hcounted hdamaged (by decide), hpayload', if_pos hne]

theorem decode_damaged_payload {start : Nat} (hstart : headerLength ≤ start)
    (hdamaged : DamagedWithin start 4 sent received) :
    c.decode received = .error (.checksumMismatch (Crc32.checksum (write m))
      (Crc32.checksum (received.drop headerLength))) := by
  obtain ⟨-, hfield, hpayload⟩ := parts_of_encode hsent
  have hfield' : (received.drop 5).take 4 = bigEndian (Crc32.checksum (write m)) := by
    have hfront : received.take (5 + 4) = sent.take (5 + 4) := hdamaged.take_eq hstart
    rw [List.take_drop, hfront, ← List.take_drop, hfield]
  have hne : Crc32.checksum (received.drop headerLength) ≠ Crc32.checksum (write m) := by
    obtain ⟨start, rfl⟩ := Nat.exists_eq_add_of_le hstart
    rw [← hpayload]
    exact Crc32.checksum_ne_of_damaged hdamaged.drop
  rw [decode_damaged hverify hsent hcounted hdamaged (Nat.le_trans (by decide) hstart), hfield',
    ofBigEndian_bigEndian, if_pos hne]

end

/-- Damage is noticed. A frame that arrives with another tag is refused. If bytes of its checksum
    have changed, or bytes within four of its payload, then the reader reports the checksum that
    arrived and the one of the payload that arrived. -/
theorem damage_detected (hverify : c.verifyChecksums = true) (hsent : c.encode m = .ok sent)
    (hcounted : (write m).length < UInt32.size - countedHeader) :
    (DamagedWithin 4 1 sent received → ∃ e, c.decode received = .error e) ∧
    (DamagedWithin 5 4 sent received → c.decode received =
      .error (.checksumMismatch (ofBigEndian ((received.drop 5).take 4))
        (Crc32.checksum (write m)))) ∧
    ∀ start, headerLength ≤ start → DamagedWithin start 4 sent received →
      c.decode received = .error (.checksumMismatch (Crc32.checksum (write m))
        (Crc32.checksum (received.drop headerLength))) :=
  ⟨decode_damaged_tag hverify hsent hcounted, decode_damaged_checksum hverify hsent hcounted,
    fun _ => decode_damaged_payload hverify hsent hcounted⟩

/-- A short message. -/
def refusal : Message := .error 404 "gone"

/-- A message that arrives under the tag of another, with another checksum, or with four bytes of
    its payload replaced. -/
theorem damage_detected_refusal :
    let sent := frame refusal.tag (write refusal)
    let tagged := sent.take 4 ++ [2] ++ sent.drop 5
    let checked := sent.take 5 ++ [0, 1, 2, 3] ++ sent.drop 9
    let filled := sent.take 20 ++ [7, 7, 7, 7] ++ sent.drop 24
    (∃ e, ({} : Codec).decode tagged = .error e) ∧
      ({} : Codec).decode checked =
        .error (.checksumMismatch 0x00010203 (Crc32.checksum (write refusal))) ∧
      ({} : Codec).decode filled = .error (.checksumMismatch
        (Crc32.checksum (write refusal)) (Crc32.checksum (filled.drop headerLength))) := by
  intro sent tagged checked filled
  have hsent : ({} : Codec).encode refusal = .ok sent := encode_of_le (by decide +kernel)
  have hlength : 24 ≤ sent.length := by decide +kernel
  have htagged : DamagedWithin 4 1 sent tagged := .of_replaced rfl (by omega) (by decide +kernel)
  have hchecked : DamagedWithin 5 4 sent checked := .of_replaced rfl (by omega) (by decide +kernel)
  have hfilled : DamagedWithin 20 4 sent filled := .of_replaced rfl (by omega) (by decide +kernel)
  have hcounted : (write refusal).length < UInt32.size - countedHeader := by decide +kernel
  have hword : ofBigEndian ((checked.drop 5).take 4) = 0x00010203 := by decide +kernel
  refine ⟨(damage_detected rfl hsent hcounted).1 htagged, ?_,
    (damage_detected rfl hsent hcounted).2.2 20 (by decide) hfilled⟩
  rw [(damage_detected rfl hsent hcounted).2.1 hchecked, hword]

end Codec

end LedgerQuery
