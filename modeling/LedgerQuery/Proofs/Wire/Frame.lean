/-
  LedgerQuery.Proofs.Wire.Frame

  Frames arrive. Whatever codec made a frame, any codec that admits its size takes the message out
  of the front of a byte string that starts with it, and leaves what follows; so a stream of
  frames is read as the messages that were sent. Main statement: `decode_sent`.
-/
import LedgerQuery.Proofs.Wire.Message
import LedgerQuery.Wire.Frame

namespace LedgerQuery.Codec

open Binary

/-! ## Headers -/

@[simp] theorem length_bigEndian (n : UInt32) : (bigEndian n).length = 4 := by
  rw [bigEndian, List.length_reverse, length_littleEndian]

@[simp] theorem ofBigEndian_bigEndian (n : UInt32) : ofBigEndian (bigEndian n) = n := by
  have hword : ofLittleEndian (littleEndian 4 n.toNat) = n.toNat :=
    ofLittleEndian_littleEndian n.toNat_lt_size
  rw [ofBigEndian, bigEndian, List.reverse_reverse, hword, UInt32.ofNat_toNat]

/-- Four bytes are those of the word that they make up. -/
theorem bigEndian_ofBigEndian {bytes : Bytes} (h : bytes.length = 4) :
    bigEndian (ofBigEndian bytes) = bytes := by
  have hlength : bytes.reverse.length = 4 := by rw [List.length_reverse, h]
  have hsmall : ofLittleEndian bytes.reverse < UInt32.size := by
    have hlt := ofLittleEndian_lt bytes.reverse
    rwa [hlength] at hlt
  have hbytes := littleEndian_ofLittleEndian bytes.reverse
  rw [hlength] at hbytes
  rw [bigEndian, ofBigEndian, UInt32.toNat_ofNat_of_lt' hsmall, hbytes, List.reverse_reverse]

theorem length_frame (tag : UInt8) (payload : Bytes) :
    (frame tag payload).length = payload.length + headerLength := by
  simp [frame, headerLength]
  omega

section
variable (tag : UInt8) (payload rest : Bytes)

theorem take_frame : (frame tag payload ++ rest).take 4 =
    bigEndian (UInt32.ofNat (payload.length + countedHeader)) := by
  rw [frame, List.append_assoc]
  exact List.take_left' (length_bigEndian _)

theorem headD_drop_frame : ((frame tag payload ++ rest).drop 4).headD 0 = tag := by
  rw [frame, List.append_assoc, List.drop_left' (length_bigEndian _)]
  rfl

theorem take_drop_frame : ((frame tag payload ++ rest).drop 5).take 4 =
    bigEndian (Crc32.checksum payload) := by
  rw [frame, List.append_cons, List.append_assoc, List.drop_left' (by simp), List.append_assoc]
  exact List.take_left' (length_bigEndian _)

theorem drop_frame : (frame tag payload ++ rest).drop headerLength = payload ++ rest := by
  rw [frame, List.append_cons, ← List.append_assoc, List.append_assoc]
  exact List.drop_left' (by simp [headerLength])

end

/-! ## Messages -/

/-- What a codec takes: messages of a size that it admits and that the length word holds, with
    payloads that survive as text. -/
structure Takes (d : Codec) (m : Message) : Prop where
  admitted : (write m).length ≤ d.maxMessageSize.toNat
  counted : (write m).length < UInt32.size - countedHeader
  portable : m.Portable

variable {d : Codec}

theorem decodePayload_write {m : Message} (h : d.Takes m) :
    decodePayload m.tag (write m) = .ok m := by
  have hshort : (write m).length < UInt64.size := Nat.lt_of_lt_of_le h.counted (by decide)
  have htaken := h.portable.reads.taken hshort []
  rw [List.append_nil] at htaken
  rw [decodePayload, htaken]
  exact if_pos rfl

/-- A frame at the front of a byte string: its size is looked at, then its payload. -/
theorem decode_frame_append {tag : UInt8} {payload : Bytes}
    (hcounted : payload.length < UInt32.size - countedHeader) (rest : Bytes) :
    d.decode (frame tag payload ++ rest) =
      if d.maxMessageSize.toNat < payload.length then
        .error (.messageTooLarge payload.length d.maxMessageSize.toNat)
      else (decodePayload tag payload).map fun m => (m, (frame tag payload).length) := by
  have hcounted : payload.length + 5 < UInt32.size := by
    simp only [UInt32.size, countedHeader] at hcounted ⊢
    omega
  have hlength : (UInt32.ofNat (payload.length + countedHeader)).toNat = payload.length + 5 :=
    UInt32.toNat_ofNat_of_lt' hcounted
  have hpresent := length_frame tag payload
  rw [headerLength] at hpresent
  -- The reader's tests in their order: header, length word, size, completeness.
  have hwhole : ¬ (frame tag payload ++ rest).length < headerLength := by
    rw [List.length_append, headerLength]
    omega
  have hheader : ¬ payload.length + 5 < countedHeader := by
    rw [countedHeader]
    omega
  have hsize : payload.length + 5 - countedHeader = payload.length := Nat.add_sub_cancel _ _
  have htotal : 4 + (payload.length + 5) = (frame tag payload).length := by omega
  have hcomplete : ¬ (frame tag payload ++ rest).length < (frame tag payload).length := by
    rw [List.length_append]
    omega
  unfold decode
  rw [if_neg hwhole]
  simp only [take_frame, headD_drop_frame, take_drop_frame, drop_frame, ofBigEndian_bigEndian,
    hlength, hsize, htotal, if_neg hheader, if_neg hcomplete, List.take_left, ne_eq,
    not_true_eq_false, and_false, if_false]

/-- The frame of a message is taken from the front of a byte string. -/
theorem decode_frame {m : Message} (h : d.Takes m) (rest : Bytes) :
    d.decode (frame m.tag (write m) ++ rest) = .ok (m, (frame m.tag (write m)).length) := by
  rw [decode_frame_append h.counted, if_neg (Nat.not_lt.2 h.admitted), decodePayload_write h]
  rfl

theorem encode_of_le {c : Codec} {m : Message} (h : (write m).length ≤ c.maxMessageSize.toNat) :
    c.encode m = .ok (frame m.tag (write m)) := if_neg (Nat.not_lt.2 h)

/-- A codec frames no message that is larger than it admits. -/
theorem le_of_encode {c : Codec} {m : Message} {bytes : Bytes} (h : c.encode m = .ok bytes) :
    (write m).length ≤ c.maxMessageSize.toNat := by
  refine Nat.le_of_not_lt fun hlarge => ?_
  rw [encode, if_pos hlarge] at h
  cases h

/-- A codec that frames a message frames all of its bytes. -/
theorem eq_frame_of_encode {c : Codec} {m : Message} {bytes : Bytes} (h : c.encode m = .ok bytes) :
    bytes = frame m.tag (write m) := by
  unfold encode at h
  dsimp only at h
  split at h
  · cases h
  · cases h
    rfl

/-! ## Streams -/

theorem decodeAll_of_ok {data : Bytes} {m : Message} {used : Nat} (hnonempty : data ≠ [])
    (h : d.decode data = .ok (m, used)) (fuel : Nat) :
    d.decodeAll (fuel + 1) data =
      ((m, used) :: (d.decodeAll fuel (data.drop used)).1,
        (d.decodeAll fuel (data.drop used)).2) := by
  cases data with
  | nil => exact absurd rfl hnonempty
  | cons b data => simp only [decodeAll, h]

/-- Frames one after the other are read as the messages that were sent, by as many steps as there
    are frames. -/
theorem decodeAll_frames {messages : List Message} (hall : ∀ m ∈ messages, d.Takes m) {fuel : Nat}
    (henough : messages.length ≤ fuel) :
    d.decodeAll fuel (messages.flatMap fun m => frame m.tag (write m)) =
      (messages.map fun m => (m, (frame m.tag (write m)).length), none) := by
  induction messages generalizing fuel with
  | nil => cases fuel <;> rfl
  | cons m messages ih =>
    have ⟨hfirst, hothers⟩ := List.forall_mem_cons.1 hall
    cases fuel with
    | zero => cases henough
    | succ fuel =>
      have hhere := decode_frame hfirst (messages.flatMap fun m => frame m.tag (write m))
      have hthere := ih hothers (Nat.le_of_succ_le_succ henough)
      have hnonempty : frame m.tag (write m) ++
          messages.flatMap (fun m => frame m.tag (write m)) ≠ [] :=
        List.append_ne_nil_of_left_ne_nil (by simp [frame]) _
      rw [List.flatMap_cons, decodeAll_of_ok hnonempty hhere, List.drop_left, hthere, List.map_cons]

theorem length_le_flatMap_frame (messages : List Message) :
    messages.length ≤ (messages.flatMap fun m => frame m.tag (write m)).length := by
  induction messages with
  | nil => exact Nat.le_refl 0
  | cons m messages ih =>
    rw [List.flatMap_cons, List.length_append, List.length_cons, length_frame, headerLength]
    omega

/-- What a codec encodes, any codec that takes it decodes: the message and the length of its frame
    come out of a byte string that starts with the frame, whatever follows, and a stream of frames
    comes out as the messages that were sent, each with the length of its frame. -/
theorem decode_sent (d : Codec) :
    (∀ (c : Codec) (m : Message) (bytes rest : Bytes), c.encode m = .ok bytes → d.Takes m →
      d.decode (bytes ++ rest) = .ok (m, bytes.length)) ∧
    ∀ sent : List (Message × Bytes), (∀ p ∈ sent, ∃ c : Codec, c.encode p.1 = .ok p.2) →
      (∀ p ∈ sent, d.Takes p.1) →
      d.decodeStream (sent.flatMap Prod.snd) = (sent.map fun p => (p.1, p.2.length), none) := by
  refine ⟨fun c m bytes rest hencoded htakes => ?_, fun sent hencoded htakes => ?_⟩
  · rw [eq_frame_of_encode hencoded]
    exact decode_frame htakes rest
  · have hframes : ∀ p ∈ sent, p.2 = frame p.1.tag (write p.1) := by
      intro p hp
      obtain ⟨c, hc⟩ := hencoded p hp
      exact eq_frame_of_encode hc
    -- Each frame is determined by its message, so the codecs that made them no longer matter.
    have hstream : sent.flatMap Prod.snd =
        (sent.map Prod.fst).flatMap fun m => frame m.tag (write m) := by
      rw [List.flatMap_def, List.flatMap_def, List.map_map, List.map_congr_left hframes]
      rfl
    have hread : sent.map (fun p => (p.1, p.2.length)) =
        (sent.map Prod.fst).map fun m => (m, (frame m.tag (write m)).length) := by
      rw [List.map_map]
      exact List.map_congr_left fun p hp => by rw [hframes p hp]; rfl
    have htaken : ∀ m ∈ sent.map Prod.fst, d.Takes m := by
      intro m hm
      obtain ⟨p, hp, rfl⟩ := List.mem_map.1 hm
      exact htakes p hp
    rw [hstream, hread, decodeStream]
    exact decodeAll_frames htaken (length_le_flatMap_frame _)

/-- A request whose operand is no number, nested three levels deep. -/
def nestedRequest : Message :=
  .queryRequest ⟨.and (.forType ⟨"test.Item"⟩ .all) (.not (.expression (.or
    (.compare (.payload "price") (.order .lessThan) (.float .nan) false)
    (.within (.ofRecord .externalId) [.text "a", .int (-1)] true)))), .initial,
    .on (.field "price") .descending⟩

/-- A payload with an escape, both kinds of numbers and an array. -/
def mixedPayload : Json :=
  .object [("amount", .integer (-4)), ("price", .float ⟨0x3FF8000000000000⟩),
    ("tags", .array [.text "a\n", .null])]

/-- An answer with one record. -/
def singleAnswer : Message :=
  .queryResponse ⟨[{
    reference := ⟨.ofNumber 7, 2⟩
    back := none
    lineage := [⟨"test.Item"⟩]
    payload := mixedPayload
    participants := [⟨"alice"⟩]
    linearId := none
    relevant := true
    status := .unconsumed
    recordedAt := .epoch
    consumedAt := none }], 9⟩

theorem portable_mixedPayload : mixedPayload.Portable Json.deepest := by
  refine .object (by decide +kernel) (List.forall_mem_cons.2 ⟨?_, List.forall_mem_cons.2 ⟨?_,
    List.forall_mem_singleton.2 (.array (List.forall_mem_cons.2 ⟨?_, ?_⟩))⟩⟩)
  · exact .integer (by decide) (by decide)
  · exact .float (by decide +kernel)
  · exact .text "a\n"
  · exact List.forall_mem_singleton.2 .null

/-- A request and an answer, framed by one codec and read by another. -/
theorem decode_sent_requestAndAnswer :
    let request := frame nestedRequest.tag (write nestedRequest)
    let answer := frame singleAnswer.tag (write singleAnswer)
    (⟨4096, true⟩ : Codec).decode (answer ++ [0]) = .ok (singleAnswer, answer.length) ∧
      (⟨4096, true⟩ : Codec).decodeStream (request ++ answer) =
        ([(nestedRequest, request.length), (singleAnswer, answer.length)], none) := by
  intro request answer
  have hframedRequest : ({} : Codec).encode nestedRequest = .ok request :=
    encode_of_le (by decide +kernel)
  have hframedAnswer : ({} : Codec).encode singleAnswer = .ok answer :=
    encode_of_le (by decide +kernel)
  have htakesRequest : Takes ⟨4096, true⟩ nestedRequest :=
    ⟨by decide +kernel, by decide +kernel, fun r hr => absurd hr List.not_mem_nil⟩
  have htakesAnswer : Takes ⟨4096, true⟩ singleAnswer :=
    ⟨by decide +kernel, by decide +kernel, List.forall_mem_singleton.2 portable_mixedPayload⟩
  obtain ⟨hone, hmany⟩ := decode_sent ⟨4096, true⟩
  refine ⟨hone {} singleAnswer answer [0] hframedAnswer htakesAnswer, ?_⟩
  have hstream := hmany [(nestedRequest, request), (singleAnswer, answer)]
    (List.forall_mem_cons.2 ⟨⟨{}, hframedRequest⟩, List.forall_mem_singleton.2 ⟨{}, hframedAnswer⟩⟩)
    (List.forall_mem_cons.2 ⟨htakesRequest, List.forall_mem_singleton.2 htakesAnswer⟩)
  rw [List.flatMap_cons, List.flatMap_singleton] at hstream
  exact hstream

end LedgerQuery.Codec
