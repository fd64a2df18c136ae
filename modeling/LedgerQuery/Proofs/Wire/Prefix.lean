/-
  LedgerQuery.Proofs.Wire.Prefix

  A reader of frames looks no further than the frame. The length word tells how many bytes that is
  (`Complete`), and what follows them makes no difference (`Complete.decode_append`); so a message
  is read from the front of a byte string exactly if the string starts with a frame that holds it
  (`startsWith_iff`).
-/
import LedgerQuery.Wire.Frame

namespace LedgerQuery.Codec

variable {d : Codec} {data front : Bytes} {m : Message} {used : Nat}

/-- A byte string that is as long as its length word tells, header and all. -/
structure Complete (front : Bytes) : Prop where
  header : headerLength ≤ front.length
  length : front.length = 4 + (ofBigEndian (front.take 4)).toNat

/-- What follows a window of a byte string makes no difference to it. -/
theorem window_append {start size : Nat} (h : start + size ≤ front.length) (rest : Bytes) :
    ((front ++ rest).drop start).take size = (front.drop start).take size := by
  rw [List.drop_append_of_le_length (by omega),
    List.take_append_of_le_length (by rw [List.length_drop]; omega)]

/-- What follows a complete frame makes no difference to its reader. -/
theorem Complete.decode_append (h : Complete front) (rest : Bytes) :
    d.decode (front ++ rest) = d.decode front := by
  have hheader : 9 ≤ front.length := h.header
  -- The parts of the frame, in the order in which the reader looks at them.
  have hword : (front ++ rest).take 4 = front.take 4 := List.take_append_of_le_length (by omega)
  have htag : ((front ++ rest).drop 4).headD 0 = (front.drop 4).headD 0 := by
    rw [List.headD_eq_head?_getD, List.headD_eq_head?_getD, List.head?_drop, List.head?_drop,
      List.getElem?_append_left (by omega)]
  have hchecksum : ((front ++ rest).drop 5).take 4 = (front.drop 5).take 4 :=
    window_append (by omega) rest
  have hpayload : ((front ++ rest).drop headerLength).take
        ((ofBigEndian (front.take 4)).toNat - countedHeader) =
      (front.drop headerLength).take ((ofBigEndian (front.take 4)).toNat - countedHeader) := by
    refine window_append ?_ rest
    have hlength := h.length
    rw [headerLength, countedHeader]
    omega
  -- Neither of the two is too short.
  have hpresent (more : Bytes) : ¬ (front ++ more).length < headerLength ∧
      ¬ (front ++ more).length < 4 + (ofBigEndian (front.take 4)).toNat := by
    rw [List.length_append, ← h.length, headerLength]
    omega
  have hwhole := hpresent rest
  have halone := hpresent []
  rw [List.append_nil] at halone
  unfold decode
  simp only [hword, htag, hchecksum, hpayload, if_neg hwhole.1, if_neg hwhole.2, if_neg halone.1,
    if_neg halone.2]

/-- What is left to look at in a complete frame: the size, the checksum and the payload. -/
theorem Complete.decode_eq (h : Complete front) :
    d.decode front =
      if d.maxMessageSize.toNat < front.length - headerLength then
        .error (.messageTooLarge (front.length - headerLength) d.maxMessageSize.toNat)
      else if d.verifyChecksums ∧
          Crc32.checksum (front.drop headerLength) ≠ ofBigEndian ((front.drop 5).take 4) then
        .error (.checksumMismatch (ofBigEndian ((front.drop 5).take 4))
          (Crc32.checksum (front.drop headerLength)))
      else (decodePayload ((front.drop 4).headD 0) (front.drop headerLength)).map
        fun m => (m, front.length) := by
  have hheader : 9 ≤ front.length := h.header
  have hlength := h.length
  generalize hword : (ofBigEndian (front.take 4)).toNat = word at hlength
  have hsize : word - countedHeader = front.length - headerLength := by
    rw [countedHeader, headerLength]
    omega
  -- The payload that the length word counts is all that stands behind the header.
  have hpayload : (front.drop headerLength).take (front.length - headerLength) =
      front.drop headerLength := List.take_of_length_le (Nat.le_of_eq List.length_drop)
  have hcounted : ¬ word < countedHeader := by
    rw [countedHeader]
    omega
  unfold decode
  simp only [hword, ← hlength, hsize, hpayload, if_neg (Nat.not_lt.2 h.header), if_neg hcounted,
    if_neg (Nat.lt_irrefl _)]

/-- A part of a frame tells only that there is more to come. -/
theorem Complete.decode_take (h : Complete front)
    (hsize : front.length - headerLength ≤ d.maxMessageSize.toNat) {present : Nat}
    (hpart : present < front.length) :
    d.decode (front.take present) = .error (.framing
      (if present < headerLength then .tooShort else .incomplete present front.length)) := by
  have hlength : (front.take present).length = present := List.length_take_of_le (by omega)
  have hword := h.length
  have hheader := h.header
  unfold decode
  rw [hlength]
  by_cases hshort : present < headerLength
  · rw [if_pos hshort, if_pos hshort]
  · -- The length word is there already, and it is looked at before the size and the rest.
    have htake : (front.take present).take 4 = front.take 4 := by
      rw [List.take_take, Nat.min_eq_left (by rw [headerLength] at hshort; omega)]
    rw [htake]
    generalize (ofBigEndian (front.take 4)).toNat = word at hword
    rw [headerLength] at hheader hsize
    have hcounted : ¬ word < countedHeader := by
      rw [countedHeader]
      omega
    have hadmitted : ¬ d.maxMessageSize.toNat < word - countedHeader := by
      rw [countedHeader]
      omega
    rw [if_neg hshort, if_neg hshort]
    dsimp only
    rw [if_neg hcounted, if_neg hadmitted, if_pos (by omega), hword]

/-- A payload is read only under the tag of the message in it. -/
theorem decodePayload_eq_ok_iff {tag : UInt8} {payload : Bytes} :
    decodePayload tag payload = .ok m ↔
      m.tag = tag ∧ ∃ rest, (Binary.read : Reader Message) payload = some (m, rest) := by
  unfold decodePayload
  cases (Binary.read : Reader Message) payload with
  | none => simp
  | some found =>
    obtain ⟨found, rest⟩ := found
    by_cases htag : found.tag = tag
    · simp only [htag, if_true, Except.ok.injEq, Option.some.injEq, Prod.mk.injEq,
        exists_and_left, exists_eq', and_true]
      exact ⟨fun h => ⟨h ▸ htag, h⟩, fun h => h.2⟩
    · simp only [htag, if_false, reduceCtorEq, Option.some.injEq, Prod.mk.injEq, exists_and_left,
        exists_eq', and_true, false_iff, not_and]
      rintro hm rfl
      exact htag hm

/-- A message that is read comes out of a complete frame. -/
theorem complete_of_decode (h : d.decode data = .ok (m, used)) :
    used ≤ data.length ∧ Complete (data.take used) ∧ used = (data.take used).length := by
  unfold decode at h
  dsimp only at h
  split at h
  · cases h
  split at h
  · cases h
  split at h
  · cases h
  split at h
  · cases h
  split at h
  · cases h
  -- All tests are passed, so the payload is read.
  rename_i hcounted _ hpresent _
  obtain rfl : 4 + (ofBigEndian (data.take 4)).toNat = used := by
    generalize decodePayload _ _ = found at h
    cases found with
    | error e => cases h
    | ok found =>
      cases h
      rfl
  rw [countedHeader] at hcounted
  have hlength : (data.take (4 + (ofBigEndian (data.take 4)).toNat)).length =
      4 + (ofBigEndian (data.take 4)).toNat := List.length_take_of_le (by omega)
  have hword : (data.take (4 + (ofBigEndian (data.take 4)).toNat)).take 4 = data.take 4 := by
    rw [List.take_take, Nat.min_eq_left (by omega)]
  refine ⟨by omega, ⟨?_, ?_⟩, hlength.symm⟩
  · rw [hlength, headerLength]
    omega
  · rw [hlength, hword]

/-- A message is read from the front of a byte string, whatever follows its frame. -/
theorem decode_take_append (h : d.decode data = .ok (m, used)) (rest : Bytes) :
    d.decode (data.take used ++ rest) = .ok (m, used) := by
  obtain ⟨-, hcomplete, -⟩ := complete_of_decode h
  rw [hcomplete.decode_append, ← hcomplete.decode_append (data.drop used), List.take_append_drop, h]

/-- A byte string starts with a frame that holds a message. -/
def StartsWith (d : Codec) (data : Bytes) (m : Message) : Prop :=
  ∃ frame rest, data = frame ++ rest ∧ d.decode frame = .ok (m, frame.length)

/-- A message is read exactly from byte strings that start with a frame that holds it. -/
theorem startsWith_iff : d.StartsWith data m ↔ ∃ used, d.decode data = .ok (m, used) := by
  constructor
  · rintro ⟨frame, rest, rfl, h⟩
    have hread := decode_take_append h rest
    rw [List.take_length] at hread
    exact ⟨frame.length, hread⟩
  · rintro ⟨used, h⟩
    have hread := decode_take_append h []
    obtain ⟨-, -, hlength⟩ := complete_of_decode h
    rw [List.append_nil] at hread
    exact ⟨data.take used, data.drop used, (List.take_append_drop _ _).symm, hlength ▸ hread⟩

end LedgerQuery.Codec
