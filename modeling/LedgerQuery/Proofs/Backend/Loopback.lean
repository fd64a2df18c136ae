/-
  LedgerQuery.Proofs.Backend.Loopback

  What a client hears from the node over frames. If a query and its reply pass both limits, that of
  the client and that of the server, the client hears the reply itself (`exchange_query`); if one
  of them does not, it hears of an error (`exchange_query_refused`), never of another reply. Main
  statement: `remote_query_agrees`, by which a query has the same answer over frames as on the node
  itself.
-/
import LedgerQuery.Backend.Remote
import LedgerQuery.Proofs.Vault.Reachable
import LedgerQuery.Proofs.Wire.Frame

namespace LedgerQuery

/-! ## Limits -/

namespace Codec

open Binary

variable {c d : Codec} {m : Message}

/-- A codec frames and reads messages up to its limit. -/
def Admits (c : Codec) (m : Message) : Prop := (write m).length ≤ c.maxMessageSize.toNat

/-- A limit below the greatest size that a length word can tell. -/
def Bounded (c : Codec) : Prop := c.maxMessageSize.toNat < UInt32.size - countedHeader

theorem encode_of_not_admits (h : ¬ c.Admits m) :
    c.encode m = .error (.messageTooLarge (write m).length c.maxMessageSize.toNat) :=
  if_pos (Nat.lt_of_not_le h)

theorem admits_of_encode {bytes : Bytes} (h : c.encode m = .ok bytes) : c.Admits m :=
  le_of_encode h

/-- What one codec frames, another one reads if it admits it. -/
theorem decode_of_admits (hc : c.Bounded) (hframed : c.Admits m) (hportable : m.Portable)
    (h : d.Admits m) :
    d.decode (frame m.tag (write m)) = .ok (m, (frame m.tag (write m)).length) := by
  have htaken := decode_frame (d := d) ⟨h, Nat.lt_of_le_of_lt hframed hc, hportable⟩ []
  rwa [List.append_nil] at htaken

/-- What one codec frames, another one refuses for its size if it does not admit it. -/
theorem decode_of_not_admits (hc : c.Bounded) (hframed : c.Admits m) (h : ¬ d.Admits m) :
    d.decode (frame m.tag (write m)) =
      .error (.messageTooLarge (write m).length d.maxMessageSize.toNat) := by
  have hcounted : (write m).length < UInt32.size - countedHeader := Nat.lt_of_le_of_lt hframed hc
  rw [← List.append_nil (frame m.tag (write m)), decode_frame_append hcounted,
    if_pos (Nat.lt_of_not_le h)]

/-- A client and a server both admit a message. -/
def Passes (client server : Codec) (m : Message) : Prop := client.Admits m ∧ server.Admits m

/-- What a server with a codec sends for a reply: its frame, or else that of the error that it
    cannot be framed, in the server's words. -/
def sent (d : Codec) (wording : Bytes → String) (reply : Message) : Except BackendError Bytes :=
  match d.encode reply with
  | .ok frame => .ok frame
  | .error e => d.encode (.error Message.internalError (e.message wording))

theorem sent_of_admits (wording : Bytes → String) (h : c.Admits m) :
    c.sent wording m = .ok (frame m.tag (write m)) := by
  rw [sent, encode_of_le h]

end Codec

theorem Message.portable_error (code : UInt32) (text : String) :
    (Message.error code text).Portable :=
  fun _ hr => nomatch hr

/-- The errors that a client hears of when something is too large: its own codec says so, or the
    server does, in a reply. -/
inductive BackendError.Refusal : BackendError → Prop where
  | tooLarge (size max : Nat) : Refusal (.messageTooLarge size max)
  | remote (code : UInt32) (text : String) : Refusal (.remote code text)

open BackendError

/-! ## The server -/

namespace Node

open Binary

variable {n : Node} {request : Bytes} {reply : Message}

/-- The reply to a query. -/
def replyTo (n : Node) (q : Query) : Message := (n.handle (.queryRequest q)).1.message

theorem replyTo_eq (n : Node) (q : Query) :
    n.replyTo q = match n.vault.query q with
      | .ok page => .queryResponse page
      | .error e => .ofVaultError e := by
  unfold replyTo handle
  dsimp only
  cases n.vault.query q <;> rfl

/-- A query announces no feed and changes nothing. -/
theorem handle_query (n : Node) (q : Query) :
    n.handle (.queryRequest q) = (⟨n.replyTo q, none⟩, n) := by
  unfold replyTo handle
  dsimp only
  cases n.vault.query q <;> rfl

theorem portable_replyTo (h : ∀ r ∈ n.vault.store.records, r.payload.Portable Json.deepest)
    (q : Query) : (n.replyTo q).Portable := by
  rw [replyTo_eq]
  cases hquery : n.vault.query q with
  | ok page => exact fun r hr => h r (Vault.mem_of_query hquery hr)
  | error e => exact Message.portable_error _ _

/-- A server that admits a framed query answers it. -/
theorem answer_framed_query {c : Codec} {q : Query} (hc : c.Bounded)
    (hframed : c.Admits (.queryRequest q)) (h : n.server.codec.Admits (.queryRequest q)) :
    n.answer (Codec.frame (Message.queryRequest q).tag (write (Message.queryRequest q))) =
      (⟨n.replyTo q, none⟩, n) := by
  have hread := Codec.decode_of_admits hc hframed (fun _ hr => nomatch hr) h
  simp only [answer, hread, handle_query]

/-- A server that does not admit a framed query answers so. -/
theorem answer_framed_query_refused {c : Codec} {q : Query} (hc : c.Bounded)
    (hframed : c.Admits (.queryRequest q)) (h : ¬ n.server.codec.Admits (.queryRequest q)) :
    ∃ text, n.answer
        (Codec.frame (Message.queryRequest q).tag (write (Message.queryRequest q))) =
      (⟨.error Message.badRequest text, none⟩, n) := by
  have hrefused := Codec.decode_of_not_admits hc hframed h
  refine ⟨(messageTooLarge (write (Message.queryRequest q)).length
    n.server.codec.maxMessageSize.toNat).message n.server.wording, ?_⟩
  rw [answer, hrefused]

/-- A reply that announces no feed is sent, and the node stays as it is. -/
theorem call_of_answer (h : n.answer request = (⟨reply, none⟩, n)) :
    n.call request = (n.server.codec.sent n.server.wording reply, n) := by
  simp only [call, h, Option.elim_none, Codec.sent]
  cases n.server.codec.encode reply <;> rfl

end Node

/-! ## The client -/

/-- What a message is to the client that reads it: an error is a failure. -/
def Message.heard : Message → Except BackendError Message
  | .error code text => .error (.remote code text)
  | m => .ok m

/-- The page that a message holds for a client that asked for one. -/
def Message.page : Message → Except BackendError (Page StoredRecord)
  | .queryResponse page => .ok page
  | other => .error (.unexpectedMessage other.name)

namespace Transport

open Binary

/-- What a client makes of a framed reply. -/
def hear (c : Codec) (reply : Bytes) : Except BackendError Message :=
  (c.decode reply).bind fun (response, _) => response.heard

/-- An exchange: framing, the call, and reading the reply. -/
theorem exchange_on {σ : Type} (t : Transport σ) (c : Codec) (m : Message) (s : σ) :
    (t.exchange c m).on s = match c.encode m with
      | .error e => (.error e, s)
      | .ok request =>
        (((t.call request).on s).1.bind (hear c), ((t.call request).on s).2) := by
  unfold exchange
  rw [Attempt.on_bind, Attempt.on_known]
  cases c.encode m with
  | error e => rfl
  | ok request =>
    dsimp only
    rw [Attempt.on_bind]
    rcases (t.call request).on s with ⟨e | reply, s⟩
    · rfl
    · dsimp only
      rw [Attempt.on_bind, Attempt.on_known, Except.bind, hear]
      rcases c.decode reply with e | ⟨response, used⟩
      · rfl
      · cases response <;> rfl

variable {c d : Codec} {m : Message} {wording : Bytes → String}

theorem hear_of_admits (hd : d.Bounded) (hframed : d.Admits m) (hportable : m.Portable)
    (h : c.Admits m) : hear c (Codec.frame m.tag (write m)) = m.heard := by
  rw [hear, Codec.decode_of_admits hd hframed hportable h]
  rfl

theorem hear_of_not_admits (hd : d.Bounded) (hframed : d.Admits m) (h : ¬ c.Admits m) :
    hear c (Codec.frame m.tag (write m)) =
      .error (.messageTooLarge (write m).length c.maxMessageSize.toNat) := by
  rw [hear, Codec.decode_of_not_admits hd hframed h]
  rfl

/-- An error that is framed makes its reader fail, whether or not it can be framed and read. -/
theorem hear_encode_error (c : Codec) (hd : d.Bounded) (code : UInt32) (text : String) :
    ∃ e, Refusal e ∧ (d.encode (.error code text)).bind (hear c) = .error e := by
  have hportable := Message.portable_error code text
  by_cases hframed : d.Admits (.error code text)
  · -- Framed, it is either read as an error or refused by the reader for its size.
    rw [Codec.encode_of_le hframed]
    by_cases h : c.Admits (.error code text)
    · exact ⟨_, .remote code text, hear_of_admits hd hframed hportable h⟩
    · exact ⟨_, .tooLarge _ _, hear_of_not_admits hd hframed h⟩
  · rw [Codec.encode_of_not_admits hframed]
    exact ⟨_, .tooLarge _ _, rfl⟩

/-- A reply within both limits is heard as it is. -/
theorem hear_sent_of_passes (hd : d.Bounded) (hportable : m.Portable) (h : c.Passes d m) :
    (d.sent wording m).bind (hear c) = m.heard := by
  rw [Codec.sent_of_admits wording h.2]
  exact hear_of_admits hd h.2 hportable h.1

/-- A reply beyond one of the limits makes its reader fail. -/
theorem hear_sent_of_not_passes (hd : d.Bounded) (h : ¬ c.Passes d m) :
    ∃ e, Refusal e ∧ (d.sent wording m).bind (hear c) = .error e := by
  by_cases hframed : d.Admits m
  · -- The reply is framed, so it is the client that does not admit it.
    have hlarge : ¬ c.Admits m := fun hadmits => h ⟨hadmits, hframed⟩
    rw [Codec.sent_of_admits wording hframed]
    exact ⟨_, .tooLarge _ _, hear_of_not_admits hd hframed hlarge⟩
  · rw [Codec.sent, Codec.encode_of_not_admits hframed]
    exact hear_encode_error c hd _ _

/-- An error that is replied makes its reader fail. -/
theorem hear_sent_error (c : Codec) (hd : d.Bounded) (code : UInt32) (text : String) :
    ∃ e, Refusal e ∧ (d.sent wording (.error code text)).bind (hear c) = .error e := by
  by_cases h : c.Passes d (.error code text)
  · exact ⟨_, .remote code text, hear_sent_of_passes hd (Message.portable_error code text) h⟩
  · exact hear_sent_of_not_passes hd h

/-! ## Queries over frames -/

variable {n : Node} {q : Query}

/-- An exchange with the node itself, once it is known how the node answers. -/
theorem loopback_exchange_on {reply : Message} (hframed : c.Admits m)
    (h : n.answer (Codec.frame m.tag (write m)) = (⟨reply, none⟩, n)) :
    (loopback.exchange c m).on n =
      ((n.server.codec.sent n.server.wording reply).bind (hear c), n) := by
  rw [exchange_on, Codec.encode_of_le hframed]
  simp only [loopback, Attempt.on_of, Node.call_of_answer h]

/-- A query whose request and reply pass both limits is answered with the reply. -/
theorem exchange_query (hc : c.Bounded) (hs : n.server.codec.Bounded)
    (hportable : ∀ r ∈ n.vault.store.records, r.payload.Portable Json.deepest)
    (hrequest : c.Passes n.server.codec (.queryRequest q))
    (hreply : c.Passes n.server.codec (n.replyTo q)) :
    (loopback.exchange c (.queryRequest q)).on n = ((n.replyTo q).heard, n) := by
  have hanswer := Node.answer_framed_query hc hrequest.1 hrequest.2
  rw [loopback_exchange_on hrequest.1 hanswer,
    hear_sent_of_passes hs (Node.portable_replyTo hportable q) hreply]

/-- A query whose request or reply does not pass both limits fails. -/
theorem exchange_query_refused (hc : c.Bounded) (hs : n.server.codec.Bounded)
    (h : ¬ (c.Passes n.server.codec (.queryRequest q) ∧ c.Passes n.server.codec (n.replyTo q))) :
    ∃ e, Refusal e ∧ (loopback.exchange c (.queryRequest q)).on n = (.error e, n) := by
  by_cases hframed : c.Admits (.queryRequest q)
  · by_cases hadmitted : n.server.codec.Admits (.queryRequest q)
    · have hanswer := Node.answer_framed_query hc hframed hadmitted
      have hlarge : ¬ c.Passes n.server.codec (n.replyTo q) := fun hreply =>
        h ⟨⟨hframed, hadmitted⟩, hreply⟩
      obtain ⟨e, hrefusal, he⟩ := hear_sent_of_not_passes hs hlarge
      exact ⟨e, hrefusal, by rw [loopback_exchange_on hframed hanswer, he]⟩
    · -- The server does not read the request, and says so as far as it can.
      obtain ⟨text, hanswer⟩ := Node.answer_framed_query_refused hc hframed hadmitted
      obtain ⟨e, hrefusal, he⟩ := hear_sent_error c hs Message.badRequest text
      exact ⟨e, hrefusal, by rw [loopback_exchange_on hframed hanswer, he]⟩
  · rw [exchange_on, Codec.encode_of_not_admits hframed]
    exact ⟨_, .tooLarge _ _, rfl⟩

end Transport

/-! ## Agreement -/

variable {n : Node} {client : RemoteConfig} {q : Query}

/-- A query over frames is an exchange that expects a page. -/
theorem remote_query_on {σ : Type} (t : Transport σ) (client : RemoteConfig) (q : Query) (s : σ) :
    ((Backend.remote t client).query q).on s =
      (((t.exchange client.codec (.queryRequest q)).on s).1.bind Message.page,
        ((t.exchange client.codec (.queryRequest q)).on s).2) := by
  show (Bind.bind _ _ : Attempt σ BackendError _).on s = _
  rw [Attempt.on_bind]
  rcases (t.exchange client.codec (.queryRequest q)).on s with ⟨e | m, s⟩
  · rfl
  · cases m <;> rfl

/-- What the reply to a query becomes: its page, or the error that was replied. -/
theorem page_of_replyTo (n : Node) (q : Query) :
    (n.replyTo q).heard.bind Message.page =
      (n.vault.query q).mapError fun e => .remote (Message.errorCode e) e.message := by
  rw [Node.replyTo_eq]
  cases n.vault.query q <;> rfl

/-- A query whose request and reply pass both limits has the page or the error of the vault. -/
theorem remote_query_of_passes (hclient : client.codec.Bounded) (hserver : n.server.codec.Bounded)
    (hportable : ∀ r ∈ n.vault.store.records, r.payload.Portable Json.deepest)
    (hrequest : client.codec.Passes n.server.codec (.queryRequest q))
    (hreply : client.codec.Passes n.server.codec (n.replyTo q)) :
    ((Backend.remote .loopback client).query q).on n =
      ((n.vault.query q).mapError fun e => .remote (Message.errorCode e) e.message, n) := by
  rw [remote_query_on, Transport.exchange_query hclient hserver hportable hrequest hreply,
    page_of_replyTo]

/-- A query whose request or reply does not pass both limits fails. -/
theorem remote_query_refused (hclient : client.codec.Bounded) (hserver : n.server.codec.Bounded)
    (h : ¬ (client.codec.Passes n.server.codec (.queryRequest q) ∧
      client.codec.Passes n.server.codec (n.replyTo q))) :
    ∃ e, Refusal e ∧ ((Backend.remote .loopback client).query q).on n = (.error e, n) := by
  obtain ⟨e, hrefusal, he⟩ := Transport.exchange_query_refused hclient hserver h
  exact ⟨e, hrefusal, by rw [remote_query_on, he]; rfl⟩

/-- The node itself has the page of a query that is within its limit. -/
theorem host_query_of_le (h : q.paging.size ≤ n.vault.config.maxPageSize) :
    (Backend.host.query q).on n = (.ok (n.vault.store.page q), n) := by
  show ((n.vault.query q).mapError BackendError.vault, n) = _
  rw [Vault.query_of_le h]
  rfl

/-- So has a client, if the frames of the query fit. -/
theorem remote_query_of_le (hclient : client.codec.Bounded) (hserver : n.server.codec.Bounded)
    (hportable : ∀ r ∈ n.vault.store.records, r.payload.Portable Json.deepest)
    (hrequest : client.codec.Passes n.server.codec (.queryRequest q))
    (hreply : client.codec.Passes n.server.codec (n.replyTo q))
    (h : q.paging.size ≤ n.vault.config.maxPageSize) :
    ((Backend.remote .loopback client).query q).on n = (.ok (n.vault.store.page q), n) := by
  rw [remote_query_of_passes hclient hserver hportable hrequest hreply, Vault.query_of_le h]
  rfl

/-- A query has the same answer over frames as on the node itself. The page of an answer over
    frames is the page that the vault answers with; if the request and the reply pass both limits,
    the answer is that page, or the code and the wording of the refusal of the vault; if not, the
    client hears that something is too large. In no case is the node changed. -/
theorem remote_query_agrees (n : Node) (client : RemoteConfig) (q : Query)
    (hclient : client.codec.Bounded) (hserver : n.server.codec.Bounded)
    (hportable : ∀ r ∈ n.vault.store.records, r.payload.Portable Json.deepest) :
    let host := (Backend.host.query q).on n
    let remote := ((Backend.remote .loopback client).query q).on n
    let passes := client.codec.Passes n.server.codec (.queryRequest q) ∧
      client.codec.Passes n.server.codec (n.replyTo q)
    host = ((n.vault.query q).mapError .vault, n) ∧
      (∀ page, remote.1 = .ok page → host.1 = .ok page) ∧
      (passes → remote.1 =
        (n.vault.query q).mapError fun e => .remote (Message.errorCode e) e.message) ∧
      (¬ passes → ∃ e, Refusal e ∧ remote.1 = .error e) ∧
      remote.2 = n := by
  intro host remote passes
  by_cases h : passes
  · have hremote := remote_query_of_passes hclient hserver hportable h.1 h.2
    refine ⟨rfl, fun page hpage => ?_, fun _ => congrArg Prod.fst hremote,
      fun hnot => absurd h hnot, congrArg Prod.snd hremote⟩
    -- Both answers come from the same one of the vault, which here is a page.
    rw [show remote.1 = _ from congrArg Prod.fst hremote] at hpage
    show (n.vault.query q).mapError BackendError.vault = .ok page
    cases hfound : n.vault.query q with
    | ok found => rw [hfound] at hpage; cases hpage; rfl
    | error e => rw [hfound] at hpage; cases hpage
  · obtain ⟨e, hrefusal, hremote⟩ := remote_query_refused hclient hserver h
    refine ⟨rfl, fun page hpage => ?_, fun hpasses => absurd hpasses h,
      fun _ => ⟨e, hrefusal, congrArg Prod.fst hremote⟩, congrArg Prod.snd hremote⟩
    rw [show remote.1 = _ from congrArg Prod.fst hremote] at hpage
    cases hpage

/-- What is said of a payload that ends too early, or starts with the number of no message. -/
def caseWording (payload : Bytes) : String :=
  let number := Binary.ofLittleEndian (payload.take 4)
  if payload.length < 4 ∨ number < 5 then "io error: "
  else "invalid value: integer `" ++ Numeral.render number ++
    "`, expected variant index 0 <= i < 5"

/-- The node of a vault that has opened a record and passed it on. -/
def passedOnNode : Node where
  vault := (Vault.recordAll {} Vault.openedAndPassedOn).1
  server := { wording := caseWording }

/-- A page that passes the limits of both sides, and one that is too large for its client. -/
theorem remote_query_agrees_passedOn :
    let q : Query := ⟨.forType .any .all, .initial, .unsorted⟩
    let small : RemoteConfig := { maxMessageSize := 128 }
    (∀ r ∈ passedOnNode.vault.store.records, r.payload.Portable Json.deepest) ∧
      (passedOnNode.vault.query q).toOption.map (·.records.length) = some 2 ∧
      (((Backend.remote .loopback {}).query q).on passedOnNode).1 =
        (passedOnNode.vault.query q).mapError (fun e => .remote (Message.errorCode e) e.message) ∧
      ∃ e, Refusal e ∧
        (((Backend.remote .loopback small).query q).on passedOnNode).1 = .error e := by
  intro q small
  have hportable : ∀ r ∈ passedOnNode.vault.store.records, r.payload.Portable Json.deepest :=
    List.forall_mem_cons.2 ⟨.null, List.forall_mem_singleton.2 .null⟩
  have hfits : (RemoteConfig.codec {}).Passes passedOnNode.server.codec (.queryRequest q) ∧
      (RemoteConfig.codec {}).Passes passedOnNode.server.codec (passedOnNode.replyTo q) := by
    unfold Codec.Passes Codec.Admits
    decide +kernel
  have hlarge : ¬ (small.codec.Passes passedOnNode.server.codec (.queryRequest q) ∧
      small.codec.Passes passedOnNode.server.codec (passedOnNode.replyTo q)) := by
    unfold Codec.Passes Codec.Admits
    decide +kernel
  have hserver : passedOnNode.server.codec.Bounded := by unfold Codec.Bounded; decide +kernel
  have hlargest := remote_query_agrees passedOnNode {} q
    (by unfold Codec.Bounded; decide +kernel) hserver hportable
  have hsmall := remote_query_agrees passedOnNode small q
    (by unfold Codec.Bounded; decide +kernel) hserver hportable
  exact ⟨hportable, by decide +kernel, hlargest.2.2.1 hfits, hsmall.2.2.2.1 hlarge⟩

end LedgerQuery
