/-
  LedgerQuery.Proofs.Wire.Stream

  Frames that arrive in pieces. A reader keeps the bytes that it has taken no message from, and
  takes a framing error to mean that there are more to come; any other error is final. However a
  stream is cut into pieces, the reader ends up where it would with all of it at once
  (`receive_append`): what it takes from the front of a byte string stays the same under more
  bytes, and a part of a frame is no reason to give up. Main statement: `frames_told_by_front`.
-/
import LedgerQuery.Proofs.Wire.Frame
import LedgerQuery.Proofs.Wire.Prefix

namespace LedgerQuery.Codec

open Binary

variable {d : Codec} {data x y : Bytes} {m : Message} {used : Nat} {e : BackendError}

/-! ## Single frames -/

/-- What is known of the first bytes of a byte string when a message is read from them. -/
structure Frames (d : Codec) (data : Bytes) (m : Message) (used : Nat) : Prop where
  header : headerLength ≤ used
  present : used ≤ data.length
  length : used - 4 = (ofBigEndian (data.take 4)).toNat
  admitted : used - headerLength ≤ d.maxMessageSize.toNat
  tag : data[4]? = some m.tag
  checksum : d.verifyChecksums = true →
    ofBigEndian ((data.drop 5).take 4) = Crc32.checksum ((data.take used).drop headerLength)

/-- A message is read only if all tests are passed. -/
theorem frames_of_decode (h : d.decode data = .ok (m, used)) : d.Frames data m used := by
  obtain ⟨hpresent, hcomplete, hused⟩ := complete_of_decode h
  have hheader := hcomplete.header
  have hlength := hcomplete.length
  rw [← hused] at hheader hlength
  have hnine : 9 ≤ used := hheader
  -- The frame alone is read as well, and its parts are those of the whole.
  have halone := decode_take_append h []
  rw [List.append_nil, hcomplete.decode_eq, ← hused] at halone
  have hword : (data.take used).take 4 = data.take 4 := by
    rw [List.take_take, Nat.min_eq_left (by omega)]
  have hfield : ((data.take used).drop 5).take 4 = (data.drop 5).take 4 := by
    rw [List.take_drop, List.take_take, Nat.min_eq_left (by omega), ← List.take_drop]
  have htag : ((data.take used).drop 4).headD 0 = (data.drop 4).headD 0 := by
    rw [List.headD_eq_head?_getD, List.headD_eq_head?_getD, List.head?_drop, List.head?_drop,
      List.getElem?_take_of_lt (by omega)]
  have hat : data[4]? = some ((data.drop 4).headD 0) := by
    rw [List.headD_eq_head?_getD, List.head?_drop, List.getElem?_eq_getElem (by omega)]
    rfl
  rw [hword] at hlength
  rw [hfield, htag] at halone
  split at halone
  · cases halone
  split at halone
  · cases halone
  rename_i hsize hchecked
  refine ⟨hheader, hpresent, by omega, Nat.le_of_not_lt hsize, ?_, fun hverify => ?_⟩
  · cases hread : decodePayload ((data.drop 4).headD 0) ((data.take used).drop headerLength) with
    | error e =>
      rw [hread] at halone
      cases halone
    | ok found =>
      rw [hread] at halone
      cases halone
      rw [hat, (decodePayload_eq_ok_iff.1 hread).1]
  · exact Eq.symm (Classical.not_not.1 fun hne => hchecked ⟨hverify, hne⟩)

/-- Any byte string with the same first bytes gives the same message. -/
theorem decode_of_take_eq (h : d.decode data = .ok (m, used)) {other : Bytes}
    (hsame : other.take used = data.take used) : d.decode other = .ok (m, used) := by
  have hread := decode_take_append h (other.drop used)
  rwa [← hsame, List.take_append_drop] at hread

/-- A proper part of them tells only that there is more to come. -/
theorem decode_take_of_lt (h : d.decode data = .ok (m, used)) {present : Nat}
    (hpart : present < used) :
    d.decode (data.take present) = .error (.framing
      (if present < headerLength then .tooShort else .incomplete present used)) := by
  obtain ⟨-, hcomplete, hused⟩ := complete_of_decode h
  have hsize := (frames_of_decode h).admitted
  rw [hused] at hsize
  have hread := hcomplete.decode_take hsize (hused ▸ hpart)
  rwa [List.take_take, Nat.min_eq_left (Nat.le_of_lt hpart), ← hused] at hread

/-! ## Streams -/

/-- Any fuel that is enough gives what the length of the byte string gives. -/
theorem decodeAll_of_le {fuel other : Nat} (h : data.length ≤ fuel) (h' : data.length ≤ other) :
    d.decodeAll fuel data = d.decodeAll other data := by
  induction fuel generalizing other data with
  | zero =>
    obtain rfl := List.eq_nil_of_length_eq_zero (Nat.le_zero.1 h)
    cases other <;> rfl
  | succ fuel ih =>
    cases data with
    | nil => cases other <;> rfl
    | cons b data =>
      cases other with
      | zero => cases h'
      | succ other =>
        cases hread : d.decode (b :: data) with
        | error e => simp only [decodeAll, hread]
        | ok found =>
          obtain ⟨m, used⟩ := found
          have hused : headerLength ≤ used := (frames_of_decode hread).header
          -- A frame is not empty, so less is left.
          have hrest : ((b :: data).drop used).length ≤ data.length := by
            rw [headerLength] at hused
            rw [List.length_drop, List.length_cons]
            omega
          rw [List.length_cons] at h h'
          have hsame := ih (Nat.le_trans hrest (Nat.le_of_succ_le_succ h))
            (Nat.le_trans hrest (Nat.le_of_succ_le_succ h'))
          rw [decodeAll_of_ok (List.cons_ne_nil _ _) hread,
            decodeAll_of_ok (List.cons_ne_nil _ _) hread, hsame]

theorem ne_nil_of_decode (h : d.decode data = .ok (m, used)) : data ≠ [] := by
  rintro rfl
  cases h

theorem decodeStream_of_ok (h : d.decode data = .ok (m, used)) :
    d.decodeStream data =
      ((m, used) :: (d.decodeStream (data.drop used)).1, (d.decodeStream (data.drop used)).2) := by
  have hnonempty := ne_nil_of_decode h
  have hpos := List.length_pos_iff.2 hnonempty
  have hused : headerLength ≤ used := (frames_of_decode h).header
  have hrest : (data.drop used).length ≤ data.length - 1 := by
    rw [headerLength] at hused
    rw [List.length_drop]
    omega
  rw [decodeStream, ← Nat.sub_add_cancel hpos, decodeAll_of_ok hnonempty h,
    decodeAll_of_le hrest (Nat.le_refl _)]
  rfl

/-- What is taken from the front of a stream without failure is followed by what the rest gives. -/
theorem decodeStream_append_of_ok (h : d.decode x = .ok (m, used)) (y : Bytes) :
    d.decodeStream (x ++ y) = ((m, used) :: (d.decodeStream (x.drop used ++ y)).1,
      (d.decodeStream (x.drop used ++ y)).2) := by
  obtain ⟨hpresent, -, -⟩ := complete_of_decode h
  have hread := decode_take_append h (x.drop used ++ y)
  rw [← List.append_assoc, List.take_append_drop] at hread
  rw [decodeStream_of_ok hread, List.drop_append_of_le_length hpresent]

theorem decodeStream_of_error (hnonempty : data ≠ []) (h : d.decode data = .error e) :
    d.decodeStream data = ([], some e) := by
  cases data with
  | nil => exact absurd rfl hnonempty
  | cons b data => simp only [decodeStream, List.length_cons, decodeAll, h]

/-- A stream is empty, or its front is no frame, or it is a frame with a shorter stream behind. -/
theorem stream_induction (d : Codec) {motive : Bytes → Prop} (nil : motive [])
    (failed : ∀ data e, data ≠ [] → d.decode data = .error e → motive data)
    (frame : ∀ data m used, d.decode data = .ok (m, used) → motive (data.drop used) → motive data)
    (data : Bytes) : motive data := by
  induction hlength : data.length using Nat.strongRecOn generalizing data with
  | ind length ih =>
    by_cases hnonempty : data = []
    · exact hnonempty ▸ nil
    cases hread : d.decode data with
    | error e => exact failed data e hnonempty hread
    | ok found =>
      obtain ⟨m, used⟩ := found
      have hframe := frames_of_decode hread
      have hheader := hframe.header
      have hpresent := hframe.present
      rw [headerLength] at hheader
      exact frame data m used hread (ih _ (by rw [List.length_drop]; omega) _ rfl)

/-- Frames that are read one by one are read one after the other. -/
theorem decodeStream_flatMap {sent : List (Message × Bytes)}
    (haccepted : ∀ p ∈ sent, d.decode p.2 = .ok (p.1, p.2.length)) :
    d.decodeStream (sent.flatMap Prod.snd) = (sent.map fun p => (p.1, p.2.length), none) := by
  induction sent with
  | nil => rfl
  | cons p sent ih =>
    obtain ⟨hfirst, hothers⟩ := List.forall_mem_cons.1 haccepted
    have hread := decode_take_append hfirst (sent.flatMap Prod.snd)
    rw [List.take_length] at hread
    rw [List.flatMap_cons, decodeStream_of_ok hread, List.drop_left, ih hothers, List.map_cons]

/-! ## Pieces -/

/-- How many bytes the frames of messages take. -/
def consumed : List (Message × Nat) → Nat
  | [] => 0
  | (_, used) :: rest => used + consumed rest

/-- A reader of a stream: the messages that it has taken, each with the bytes of its frame, the
    bytes that it holds, and why it has given up, if it has. -/
structure Inbox where
  messages : List (Message × Nat) := []
  held : Bytes := []
  failure : Option BackendError := none

/-- Whether an error leaves room for more bytes to come. -/
def isFraming : BackendError → Bool
  | .framing _ => true
  | _ => false

/-- The failure of a stream, unless it may be for want of bytes. -/
def givesUp? (failure : Option BackendError) : Option BackendError :=
  failure.filter fun e => !isFraming e

/-- One more piece arrives: the reader takes what messages there are now. -/
def receive (d : Codec) (s : Inbox) (piece : Bytes) : Inbox :=
  match s.failure with
  | some _ => s
  | none =>
    let data := s.held ++ piece
    let (taken, failure) := d.decodeStream data
    ⟨s.messages ++ taken, data.drop (consumed taken), givesUp? failure⟩

theorem consumed_append (taken more : List (Message × Nat)) :
    consumed (taken ++ more) = consumed taken + consumed more := by
  induction taken with
  | nil => exact (Nat.zero_add _).symm
  | cons read taken ih => rw [List.cons_append, consumed, consumed, ih, Nat.add_assoc]

theorem consumed_le (d : Codec) (data : Bytes) :
    consumed (d.decodeStream data).1 ≤ data.length := by
  induction data using stream_induction d with
  | nil => exact Nat.le_refl 0
  | failed data e hnonempty hread =>
    rw [decodeStream_of_error hnonempty hread]
    exact Nat.zero_le _
  | frame data m used hread ih =>
    have hpresent := (frames_of_decode hread).present
    rw [List.length_drop] at ih
    rw [decodeStream_of_ok hread, consumed]
    omega

/-- A stream without failure stops at no part of it but for want of bytes. -/
theorem framing_of_append (h : (d.decodeStream (x ++ y)).2 = none) (hnonempty : x ≠ [])
    (hx : d.decode x = .error e) : isFraming e = true := by
  cases hread : d.decode (x ++ y) with
  | error e' =>
    rw [decodeStream_of_error (List.append_ne_nil_of_left_ne_nil hnonempty y) hread] at h
    cases h
  | ok found =>
    obtain ⟨m, used⟩ := found
    -- The frame goes on behind the part, or it would be read from the part alone.
    have hpart : x.length < used := by
      refine Nat.lt_of_not_le fun hle => ?_
      have hsame : x.take used = (x ++ y).take used := (List.take_append_of_le_length hle).symm
      rw [decode_of_take_eq hread hsame] at hx
      cases hx
    have htold := decode_take_of_lt hread hpart
    rw [List.take_left, hx] at htold
    cases htold
    rfl

/-- No part of a stream without failure makes a reader give up. -/
theorem givesUp?_of_append (h : (d.decodeStream (x ++ y)).2 = none) :
    givesUp? (d.decodeStream x).2 = none := by
  -- Along the frames of the part.
  induction x using stream_induction d with
  | nil => rfl
  | failed x e hnonempty hx =>
    rw [decodeStream_of_error hnonempty hx, givesUp?, Option.filter_some,
      framing_of_append h hnonempty hx]
    rfl
  | frame x m used hx ih =>
    rw [decodeStream_append_of_ok hx] at h
    rw [decodeStream_of_ok hx]
    exact ih h

/-- A stream may be cut anywhere: what its front gives is followed by what the rest gives, together
    with the bytes that are left of the front. -/
theorem decodeStream_append (d : Codec) (x y : Bytes) :
    d.decodeStream (x ++ y) =
      ((d.decodeStream x).1 ++ (d.decodeStream (x.drop (consumed (d.decodeStream x).1) ++ y)).1,
        (d.decodeStream (x.drop (consumed (d.decodeStream x).1) ++ y)).2) := by
  induction x using stream_induction d with
  | nil => rfl
  | failed x e hnonempty hx =>
    rw [decodeStream_of_error hnonempty hx]
    rfl
  | frame x m used hx ih =>
    rw [decodeStream_of_ok hx, decodeStream_append_of_ok hx y, ih, List.drop_drop]
    rfl

/-- A reader that does not give up receives two pieces as one. -/
theorem receive_append {s : Inbox} (hs : s.failure = none)
    (hfront : givesUp? (d.decodeStream (s.held ++ x)).2 = none) (y : Bytes) :
    d.receive (d.receive s x) y = d.receive s (x ++ y) := by
  have hwhole := decodeStream_append d (s.held ++ x) y
  have htaken := consumed_le d (s.held ++ x)
  simp only [receive, hs, hfront, ← List.append_assoc, hwhole, consumed_append, ← List.drop_drop,
    List.drop_append_of_le_length htaken]

/-- Any number of pieces of a stream without failure are received as one. -/
theorem foldl_receive {s : Inbox} (hs : s.failure = none) {pieces : List Bytes}
    (h : (d.decodeStream (s.held ++ x ++ pieces.flatten)).2 = none) :
    pieces.foldl d.receive (d.receive s x) = d.receive s (x ++ pieces.flatten) := by
  induction pieces generalizing x with
  | nil =>
    rw [List.flatten_nil, List.append_nil]
    rfl
  | cons piece pieces ih =>
    rw [List.flatten_cons] at h ⊢
    rw [List.foldl_cons, receive_append hs (givesUp?_of_append h), ← List.append_assoc]
    exact ih (by rwa [← List.append_assoc, List.append_assoc _ piece])

theorem consumed_lengths (sent : List (Message × Bytes)) :
    consumed (sent.map fun p => (p.1, p.2.length)) = (sent.flatMap Prod.snd).length := by
  induction sent with
  | nil => rfl
  | cons p sent ih =>
    rw [List.map_cons, consumed, ih, List.flatMap_cons, List.length_append]

/-- A message is told by the first bytes of a byte string. When one is read, these bytes are a frame
    as its header says, any byte string that starts with them gives the same message, and any
    part of them tells only that there is more to come. So a reader that waits for more takes out
    of a stream the messages that were sent, each with the bytes of its frame, whatever the pieces
    in which it arrives. -/
theorem frames_told_by_front (d : Codec) :
    (∀ data m used, d.decode data = .ok (m, used) →
      d.Frames data m used ∧
      (∀ other : Bytes, other.take used = data.take used → d.decode other = .ok (m, used)) ∧
      ∀ present, present < used → d.decode (data.take present) = .error (.framing
        (if present < headerLength then .tooShort else .incomplete present used))) ∧
    ∀ sent : List (Message × Bytes), (∀ p ∈ sent, d.decode p.2 = .ok (p.1, p.2.length)) →
      ∀ pieces : List Bytes, pieces.flatten = sent.flatMap Prod.snd →
        pieces.foldl d.receive {} = { messages := sent.map fun p => (p.1, p.2.length) } := by
  refine ⟨fun data m used h => ⟨frames_of_decode h, fun other => decode_of_take_eq h,
    fun present => decode_take_of_lt h⟩, fun sent haccepted pieces hpieces => ?_⟩
  have hstream := decodeStream_flatMap haccepted
  have hall : (d.decodeStream pieces.flatten).2 = none := by rw [hpieces, hstream]
  -- Nothing at all may be taken for a piece that came first.
  calc pieces.foldl d.receive {}
    _ = pieces.foldl d.receive (d.receive {} []) := rfl
    _ = d.receive {} pieces.flatten := foldl_receive rfl hall
    _ = { messages := sent.map fun p => (p.1, p.2.length) } := by
        simp only [receive, hpieces, List.nil_append, hstream, consumed_lengths, List.drop_length]
        rfl

/-- A request and an answer, cut in the middle of a header and in the middle of a payload. -/
theorem frames_told_by_front_cutTwice :
    let request := frame nestedRequest.tag (write nestedRequest)
    let answer := frame singleAnswer.tag (write singleAnswer)
    let stream := request ++ answer
    ({} : Codec).Frames stream nestedRequest 190 ∧
      ({} : Codec).decode (request ++ [1]) = .ok (nestedRequest, 190) ∧
      ({} : Codec).decode (stream.take 5) = .error (.framing .tooShort) ∧
      ({} : Codec).decode (stream.take 100) = .error (.framing (.incomplete 100 190)) ∧
      [stream.take 5, (stream.drop 5).take 200, stream.drop 205].foldl (receive {}) {} =
        { messages := [(nestedRequest, request.length), (singleAnswer, answer.length)] } := by
  intro request answer stream
  have htakesRequest : Takes {} nestedRequest :=
    ⟨by decide +kernel, by decide +kernel, fun r hr => absurd hr List.not_mem_nil⟩
  have htakesAnswer : Takes {} singleAnswer :=
    ⟨by decide +kernel, by decide +kernel, List.forall_mem_singleton.2 portable_mixedPayload⟩
  have hrequest := decode_frame htakesRequest
  have hanswer := decode_frame htakesAnswer
  have hlength : request.length = 190 := by decide +kernel
  obtain ⟨hone, hmany⟩ := frames_told_by_front {}
  obtain ⟨hframes, hothers, hparts⟩ := hone stream nestedRequest request.length (hrequest answer)
  have hsame : (request ++ [1]).take request.length = stream.take request.length := by
    rw [List.take_left, List.take_left]
  have haccepted : ∀ p ∈ [(nestedRequest, request), (singleAnswer, answer)],
      ({} : Codec).decode p.2 = .ok (p.1, p.2.length) := by
    have hfirst := hrequest []
    have hsecond := hanswer []
    rw [List.append_nil] at hfirst hsecond
    exact List.forall_mem_cons.2 ⟨hfirst, List.forall_mem_singleton.2 hsecond⟩
  have hpieces : [stream.take 5, (stream.drop 5).take 200, stream.drop 205].flatten =
      [(nestedRequest, request), (singleAnswer, answer)].flatMap Prod.snd := by
    have hback : stream.drop 205 = (stream.drop 5).drop 200 := by rw [List.drop_drop]
    rw [hback]
    simp only [List.flatten_cons, List.flatten_nil, List.flatMap_cons, List.flatMap_nil,
      List.append_nil, List.take_append_drop]
    rfl
  rw [hlength] at hframes hothers hparts hsame
  exact ⟨hframes, hothers _ hsame, hparts 5 (by decide), hparts 100 (by decide),
    hmany _ haccepted _ hpieces⟩

end LedgerQuery.Codec
