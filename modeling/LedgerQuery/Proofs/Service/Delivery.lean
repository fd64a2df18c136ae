/-
  LedgerQuery.Proofs.Service.Delivery

  A feed tells of every change once and in order, whatever is sent while it is asked. Along a run
  the channel is always one of which nothing has been read since the feed came past the changes
  before, and what was told of those is handed over or pending (`Delivery.Sound`). So a change is
  left out only if it has given way by the time the feed comes past it, or cannot be viewed. Main
  statement: `updates_delivered_once`.
-/
import LedgerQuery.Proofs.Service.Account
import LedgerQuery.Proofs.Service.Feed
import LedgerQuery.Proofs.Vault.Routing
import LedgerQuery.Record.Schema

namespace LedgerQuery

/-! ## Runs -/

/-- How a feed is asked: for the next notification, or for all of them, to be shown to an
    observer. -/
inductive Call (α : Type) : Type 1 where
  | next
  | drain {β : Type} (observe : β → Notification α → Except String β) (seen : β)

/-- What happens at either end of a channel: a change is sent, the sender goes away, or the feed
    is asked. -/
inductive Move (α : Type) : Type 1 where
  | send (u : Update)
  | close
  | call (c : Call α)

/-- The changes that are sent until the sender goes away. -/
def Move.sends {α : Type} : List (Move α) → List Update
  | [] | .close :: _ => []
  | .send u :: rest => u :: sends rest
  | .call _ :: rest => sends rest

/-- A feed and its channel, with what has been sent, how many changes had been sent when the feed
    came past each, and what it has handed over and failed on. -/
structure Delivery (α : Type) where
  feed : Feed α
  channel : Channel Update
  sent : List Update := []
  passed : List Nat := []
  handed : List (Notification α) := []
  failed : List QueryError := []

namespace Delivery

variable {α : Type} [RecordState α]

/-- What a call leaves behind. It has come past the changes that the channel has no more for it. -/
def called (s : Delivery α) (handed : List (Notification α)) (failed : List QueryError)
    (g : Feed α) (d : Channel Update) : Delivery α where
  feed := g
  channel := d
  sent := s.sent
  passed := s.passed ++
    List.replicate (s.sent.length - d.behind - s.passed.length) s.sent.length
  handed := s.handed ++ handed
  failed := s.failed ++ failed

/-- What a move leaves behind. A sender that is gone sends nothing. -/
def act (s : Delivery α) : Move α → Delivery α
  | .send u =>
    match if s.channel.isOpen then s.channel.send? u else none with
    | some c => { s with channel := c, sent := s.sent ++ [u] }
    | none => s
  | .close => { s with channel := s.channel.close }
  | .call .next =>
    let (answer, g, d) := s.feed.next s.channel
    s.called (Feed.answered answer) (Feed.failures answer) g d
  | .call (.drain observe seen) =>
    let (result, _, g, d) := s.feed.drain observe seen 0 s.channel
    s.called (s.feed.handed observe seen s.channel) (Feed.failures result) g d

def run (s : Delivery α) (moves : List (Move α)) : Delivery α := moves.foldl act s

/-- A feed over a new channel. -/
def start (α : Type) (status : StatusFilter) (capacity : Nat) : Delivery α where
  feed := { status }
  channel := .ofCapacity capacity

/-! ## Changes that the feed has come past -/

/-- What becomes of a change that the feed has come past: nothing is told of it if more changes
    than the channel holds had been sent from it on. -/
def telling (α : Type) [RecordState α] (status : StatusFilter) (capacity i : Nat)
    (change : Update × Nat) : Telling α :=
  if i + capacity < change.2 then .ok [] else Notification.ofUpdate α status change.1

/-- What becomes of all changes that the feed has come past. -/
def tellings (s : Delivery α) (capacity : Nat) : List (Telling α) :=
  (s.sent.zip s.passed).mapIdx (telling α s.feed.status capacity)

variable {s : Delivery α} {status : StatusFilter} {capacity k lost : Nat} {sent : List Update}
  {passed : List Nat}

omit [RecordState α] in
theorem zip_passed (h : passed.length ≤ sent.length) (later : List Nat) :
    sent.zip (passed ++ later) =
      (sent.take passed.length).zip passed ++ (sent.drop passed.length).zip later := by
  conv_lhs => rw [← List.take_append_drop passed.length sent]
  exact List.zip_append (List.length_take_of_le h)

omit [RecordState α] in
theorem zip_take_passed (h : passed.length ≤ sent.length) :
    (sent.take passed.length).zip passed = sent.zip passed := by
  rw [← List.append_nil ((sent.take passed.length).zip passed), ← List.zip_nil_right,
    ← zip_passed h, List.append_nil]

/-- What a call comes past: first changes that have given way, then those that it takes. -/
theorem mapIdx_telling_append (hpassed : passed.length ≤ sent.length)
    (hlost : lost = sent.length - passed.length - capacity)
    (hk : passed.length + lost + k ≤ sent.length) :
    (sent.zip (passed ++ List.replicate (lost + k) sent.length)).mapIdx
        (telling α status capacity) =
      (sent.zip passed).mapIdx (telling α status capacity) ++
        (List.replicate lost (.ok []) ++
          ((sent.drop (passed.length + lost)).take k).map (Notification.ofUpdate α status)) := by
  have hlength : (sent.zip passed).length = passed.length := by
    rw [List.length_zip, Nat.min_eq_right hpassed]
  rw [zip_passed hpassed, zip_take_passed hpassed, List.mapIdx_append, hlength]
  congr 1
  refine List.ext_getElem ?_ fun i hi _ => ?_
  · simp only [List.length_mapIdx, List.length_zip, List.length_drop, List.length_replicate,
      List.length_append, List.length_map, List.length_take]
    omega
  · rw [List.length_mapIdx, List.length_zip, List.length_drop, List.length_replicate] at hi
    rw [List.getElem_mapIdx, List.getElem_zip, List.getElem_replicate, List.getElem_append,
      telling]
    -- A change has given way if the channel has been filled from it on.
    by_cases hgone : i < lost
    · rw [if_pos (by omega), dif_pos (by rwa [List.length_replicate]), List.getElem_replicate]
    · rw [if_neg (by omega), dif_neg (by rwa [List.length_replicate])]
      simp only [List.getElem_map, List.getElem_take, List.getElem_drop, List.length_replicate]
      congr 2
      omega

/-! ## The account of a run -/

/-- What holds after every run: the channel is one of which nothing has been read since the feed
    came past the changes before, and what was told of those is handed over or pending. -/
structure Sound (status : StatusFilter) (capacity : Nat) (s : Delivery α) : Prop where
  status : s.feed.status = status
  passed_le : s.passed.length ≤ s.sent.length
  channel : { s.channel with isOpen := true } = .after capacity (s.sent.drop s.passed.length)
  handed : s.handed ++ s.feed.pending = (s.tellings capacity).flatMap Telling.notices
  failed : s.failed = (s.tellings capacity).filterMap Telling.failure?

theorem Sound.start (status : StatusFilter) (n : Nat) :
    (start α status n).Sound status (Channel.powerFrom n) where
  status := rfl
  passed_le := Nat.le_refl 0
  channel := Channel.ofCapacity_eq_after n
  handed := rfl
  failed := rfl

theorem Sound.missed (h : s.Sound status capacity) :
    s.channel.missed = s.sent.length - s.passed.length - capacity := by
  rw [← List.length_drop]
  exact congrArg Channel.missed h.channel

theorem Sound.held (h : s.Sound status capacity) :
    s.channel.held = s.sent.drop (s.passed.length + s.channel.missed) := by
  rw [h.missed, ← List.drop_drop, ← List.length_drop]
  exact congrArg Channel.held h.channel

/-- What the feed has not come past is held or missed. -/
theorem Sound.behind (h : s.Sound status capacity) :
    s.passed.length + s.channel.behind = s.sent.length := by
  have hle := h.passed_le
  have hmissed := h.missed
  rw [Channel.behind, h.held, List.length_drop]
  omega

/-- A change that is sent comes into the channel. -/
theorem Sound.act_send (h : s.Sound status capacity) (hcapacity : 0 < capacity)
    (hopen : s.channel.isOpen = true) (u : Update) :
    s.act (.send u) = { s with
      channel := .after capacity ((s.sent ++ [u]).drop s.passed.length)
      sent := s.sent ++ [u] } := by
  have hchannel : s.channel = .after capacity (s.sent.drop s.passed.length) := by
    rw [← h.channel, ← hopen]
  have hsend : s.channel.send? u =
      some (.after capacity ((s.sent ++ [u]).drop s.passed.length)) := by
    rw [hchannel, Channel.send?_after hcapacity, List.drop_append_of_le_length h.passed_le]
  simp only [act, hopen, if_pos, hsend]

theorem act_send_of_closed (hclosed : s.channel.isOpen = false) (u : Update) :
    s.act (.send u) = s := by
  simp only [act, hclosed, Bool.false_eq_true, if_false]

/-- Sending a change keeps the account. -/
theorem Sound.send (h : s.Sound status capacity) (hcapacity : 0 < capacity) (u : Update) :
    (s.act (.send u)).Sound status capacity := by
  have hle := h.passed_le
  cases hopen : s.channel.isOpen with
  | false => rwa [act_send_of_closed hopen]
  | true =>
    have hle' : s.passed.length ≤ (s.sent ++ [u]).length := by
      rw [List.length_append]
      exact Nat.le_add_right_of_le hle
    -- The feed has not come past the change.
    have hzip : (s.sent ++ [u]).zip s.passed = s.sent.zip s.passed := by
      rw [← zip_take_passed hle', List.take_append_of_le_length hle, zip_take_passed hle]
    rw [h.act_send hcapacity hopen]
    exact {
      status := h.status
      passed_le := hle'
      channel := rfl
      handed := by
        rw [tellings, hzip]
        exact h.handed
      failed := by
        rw [tellings, hzip]
        exact h.failed }

theorem Sound.close (h : s.Sound status capacity) : (s.act .close).Sound status capacity where
  status := h.status
  passed_le := h.passed_le
  channel := h.channel
  handed := h.handed
  failed := h.failed

section Called

variable {ns : List (Notification α)} {es : List QueryError} {g : Feed α} {d : Channel Update}

/-- A call either leaves the channel as it is, or comes past what was missed. -/
theorem Sound.channel_of_account (h : s.Sound status capacity)
    (haccount : s.feed.Account s.channel k ns es g d) :
    (d = s.channel ∧ k = 0) ∨
      d.behind + (s.passed.length + s.channel.missed + k) = s.sent.length ∧
      { d with isOpen := true } =
        Channel.after capacity (s.sent.drop (s.passed.length + s.channel.missed + k)) := by
  have hle := h.passed_le
  have hlost := h.missed
  have htaken := haccount.bounded
  have hchannel := haccount.channel
  have hheld := haccount.held
  rw [h.held, List.length_drop] at htaken
  rcases haccount.missed with hnone | ⟨hsame, rfl⟩
  · right
    rw [h.held, List.drop_drop] at hheld
    have hbehind : d.behind + (s.passed.length + s.channel.missed + k) = s.sent.length := by
      rw [Channel.behind, hheld, hnone, List.length_drop]
      omega
    refine ⟨hbehind, ?_⟩
    have hcapacity : d.capacity = capacity :=
      (congrArg Channel.capacity hchannel).trans (congrArg Channel.capacity h.channel)
    have hattached : d.attached = true :=
      (congrArg Channel.attached hchannel).trans (congrArg Channel.attached h.channel)
    -- What is left fits into the channel.
    have hroom : (s.sent.drop (s.passed.length + s.channel.missed + k)).length - capacity = 0 := by
      rw [List.length_drop]
      omega
    rw [Channel.after, hroom, List.drop_zero, hcapacity, hattached, hheld, hnone]
  · left
    rw [List.drop_zero] at hheld
    rw [← hheld, ← hsame] at hchannel
    exact ⟨hchannel, rfl⟩

/-- What a call tells of are the changes that it takes, after nothing for those that were
    missed. -/
theorem Sound.tellings_called (h : s.Sound status capacity)
    (haccount : s.feed.Account s.channel k ns es g d) :
    ∃ lost, (s.called ns es g d).tellings capacity = s.tellings capacity ++
      (List.replicate lost (.ok []) ++ s.feed.tellings (s.channel.held.take k)) := by
  have hstatus := haccount.status
  have hle := h.passed_le
  rcases h.channel_of_account haccount with ⟨rfl, rfl⟩ | ⟨hbehind, -⟩
  · refine ⟨0, ?_⟩
    have hnone : s.sent.length - s.channel.behind - s.passed.length = 0 := by
      have := h.behind
      omega
    rw [tellings, called]
    dsimp only
    rw [hnone, hstatus, List.replicate_zero, List.append_nil]
    exact (List.append_nil _).symm
  · refine ⟨s.channel.missed, ?_⟩
    have hpassed : s.sent.length - d.behind - s.passed.length = s.channel.missed + k := by omega
    rw [tellings, called]
    dsimp only
    rw [hpassed, hstatus, mapIdx_telling_append hle h.missed (by omega), h.held]
    rfl

/-- A call keeps the account. -/
theorem Sound.called (h : s.Sound status capacity)
    (haccount : s.feed.Account s.channel k ns es g d) :
    (s.called ns es g d).Sound status capacity := by
  obtain ⟨lost, htellings⟩ := h.tellings_called haccount
  have hbehind := h.behind
  have hle := h.passed_le
  -- Those that have given way are passed over, with no notification and no failure.
  have hnotices : (List.replicate lost (.ok [] : Telling α)).flatMap Telling.notices = [] :=
    List.flatMap_eq_nil_iff.2 fun _ h => (List.eq_of_mem_replicate h).symm ▸ rfl
  have hfailures : (List.replicate lost (.ok [] : Telling α)).filterMap Telling.failure? = [] :=
    List.filterMap_replicate_of_none rfl
  have hlength : (s.called ns es g d).passed.length =
      s.passed.length + (s.sent.length - d.behind - s.passed.length) := by
    rw [Delivery.called, List.length_append, List.length_replicate]
  refine ⟨haccount.status.trans h.status, ?_, ?_, ?_, ?_⟩
  · show _ ≤ s.sent.length
    omega
  · rw [hlength]
    rcases h.channel_of_account haccount with ⟨rfl, -⟩ | ⟨hleft, hchannel⟩
    · have hsame : s.passed.length + (s.sent.length - s.channel.behind - s.passed.length) =
          s.passed.length := by omega
      rw [hsame]
      exact h.channel
    · have hpast : s.passed.length + (s.sent.length - d.behind - s.passed.length) =
          s.passed.length + s.channel.missed + k := by omega
      rw [hpast]
      exact hchannel
  · rw [htellings, List.flatMap_append, List.flatMap_append, hnotices, ← h.handed,
      List.nil_append, List.append_assoc, haccount.handed, ← List.append_assoc]
    rfl
  · rw [htellings, List.filterMap_append, List.filterMap_append, hfailures, ← h.failed,
      List.nil_append, haccount.failed]
    rfl

end Called

/-- Every way to ask has an account. -/
theorem exists_account (s : Delivery α) (call : Call α) :
    ∃ k ns es g d, s.feed.Account s.channel k ns es g d ∧
      s.act (.call call) = s.called ns es g d := by
  cases call with
  | next =>
    obtain ⟨k, haccount⟩ := Feed.exists_account_next (f := s.feed) (c := s.channel) rfl
    exact ⟨k, _, _, _, _, haccount, rfl⟩
  | drain observe seen =>
    have hdrain : s.feed.drain observe seen 0 s.channel = (_, _, _, _) := rfl
    obtain ⟨k, haccount⟩ := Feed.exists_account_drain hdrain
    exact ⟨k, _, _, _, _, haccount, rfl⟩

theorem Sound.act (h : s.Sound status capacity) (hcapacity : 0 < capacity) (m : Move α) :
    (s.act m).Sound status capacity := by
  cases m with
  | send u => exact h.send hcapacity u
  | close => exact h.close
  | call call =>
    obtain ⟨k, ns, es, g, d, haccount, hcall⟩ := s.exists_account call
    rw [hcall]
    exact h.called haccount

theorem Sound.run (h : s.Sound status capacity) (hcapacity : 0 < capacity)
    (moves : List (Move α)) : (s.run moves).Sound status capacity := by
  induction moves generalizing s with
  | nil => exact h
  | cons m rest ih => exact ih (h.act hcapacity m)

/-- What has been sent after a run is what its moves send until the sender goes away. -/
theorem Sound.sent_run (h : s.Sound status capacity) (hcapacity : 0 < capacity)
    (moves : List (Move α)) : (s.run moves).sent =
      s.sent ++ if s.channel.isOpen then Move.sends moves else [] := by
  induction moves generalizing s with
  | nil => cases s.channel.isOpen <;> exact (List.append_nil _).symm
  | cons m rest ih =>
    show ((s.act m).run rest).sent = _
    rw [ih (h.act hcapacity m)]
    cases m with
    | send u =>
      cases hopen : s.channel.isOpen with
      | false =>
        rw [act_send_of_closed hopen, hopen]
        rfl
      | true =>
        rw [h.act_send hcapacity hopen]
        exact List.append_assoc _ _ _
    | close => cases s.channel.isOpen <;> rfl
    | call call =>
      obtain ⟨k, ns, es, g, d, haccount, hcall⟩ := s.exists_account call
      have hopen : d.isOpen = s.channel.isOpen := by rw [← haccount.channel]
      rw [hcall, Delivery.called, hopen]
      rfl

/-! ## Every change once -/

/-- A feed hands over each change once and in order. Whatever is sent while the feed is asked, what
    it has handed over and what is pending are together the notifications of the changes that it
    has come past, without those that had given way by then and those that cannot be viewed; each
    of these is one failure. What it has not come past is in the channel. Once there is no
    notification yet, it has come past everything, and nothing is pending. An observer is shown the
    notifications one by one, and one that it refuses leaves the others to the next call. -/
theorem updates_delivered_once (status : StatusFilter) (n : Nat) (moves : List (Move α)) :
    let capacity := Channel.powerFrom n
    let s := (start α status n).run moves
    let told := (s.sent.zip s.passed).mapIdx (telling α status capacity)
    s.sent = Move.sends moves ∧ s.channel.capacity = capacity ∧
    s.passed.length + s.channel.behind = s.sent.length ∧
    s.handed ++ s.feed.pending = told.flatMap Telling.notices ∧
    s.failed = told.filterMap Telling.failure? ∧
    ((s.feed.next s.channel).1 = .ok none →
      (s.act (.call .next)).passed.length = s.sent.length ∧
        (s.act (.call .next)).feed.pending = []) ∧
    ∀ {β : Type} (observe : β → Notification α → Except String β) (seen : β),
      let (result, last, g, d) := s.feed.drain observe seen 0 s.channel
      let shown := s.feed.handed observe seen s.channel
      Feed.Settled observe seen 0 shown last result ∧
        ∀ reason, result = .error (.observer reason) →
          s.feed.handed Feed.accept () s.channel = shown ++ g.handed Feed.accept () d ∧
          ∀ k, s.feed.drain Feed.accept () k s.channel =
            g.drain Feed.accept () (k + shown.length) d := by
  intro capacity s told
  have hcapacity : 0 < capacity := by
    have hle := Channel.le_powerFrom n
    omega
  have hsound : s.Sound status capacity := (Sound.start status n).run hcapacity moves
  have htold : s.tellings capacity = told := by
    rw [tellings, hsound.status]
  have hnone (hanswer : (s.feed.next s.channel).1 = .ok none) :
      (s.act (.call .next)).passed.length = s.sent.length ∧
        (s.act (.call .next)).feed.pending = [] := by
    obtain ⟨hpending, hheld, hmissed⟩ := Feed.of_next_none (Prod.ext hanswer rfl)
    have hbehind : (s.act (.call .next)).passed.length + (s.act (.call .next)).channel.behind =
        s.sent.length := (hsound.act hcapacity (.call .next)).behind
    -- The channel holds nothing and has missed nothing, so the feed is level with the sender.
    have hread : (s.act (.call .next)).channel.behind = 0 := by
      show (s.feed.next s.channel).2.2.held.length + (s.feed.next s.channel).2.2.missed = 0
      rw [hheld, hmissed]
      rfl
    exact ⟨by rwa [hread] at hbehind, hpending⟩
  refine ⟨(Sound.start status n).sent_run hcapacity moves, ?_, hsound.behind,
    htold ▸ hsound.handed, htold ▸ hsound.failed, hnone, fun observe seen =>
      ⟨Feed.settled_drain observe seen 0 s.feed s.channel, fun reason hrefused => ?_⟩⟩
  · exact (congrArg Channel.capacity hsound.channel :)
  · have hkept := Feed.kept_of_refused (Prod.ext hrefused rfl)
    exact ⟨(hkept 0).1, fun k => (hkept k).2⟩

/-- Records of amounts. -/
def amounts : Schema where
  name := "test.Amount"
  fields := some [("amount", .integer)]
  unreadable _ := "invalid type: null, expected struct Amount"

/-- A transaction that produces records with these payloads. -/
def producing (number : Nat) (payloads : List Json) : Update where
  transaction := .ofNumber number
  consumed := []
  produced := payloads.map fun payload =>
    .ofState ⟨.ofNumber number, 0⟩ none (⟨payload⟩ : amounts.State) .epoch

/-- Three changes come into a channel that holds two, the last one with a record that cannot be
    viewed. Then the feed is asked for the first notification. -/
def overtaken : List (Move amounts.State) :=
  let amount (n : Int) : Json := .object [("amount", .integer n)]
  [.send (producing 1 [amount 1]), .send (producing 2 [amount 2, amount 3]),
    .send (producing 3 [.null]), .call .next]

/-- The first change has given way. An observer that refuses the second record of the next one
    leaves what lies behind it. After one more change, of which nothing is told, the feed hands
    that record over, fails once, and has then come past everything. -/
theorem updates_delivered_once_overtaken :
    let refuse := fun (_ : Unit) (_ : Notification amounts.State) => Except.error "full"
    let s := (start amounts.State .all 2).run overtaken
    let last := s.run [.send (producing 4 []), .call .next, .call .next, .call .next]
    (last.passed = [3, 3, 4, 4] ∧ last.handed.length = 2 ∧ last.failed.length = 1 ∧
      (last.act (.call .next)).passed.length = last.sent.length) ∧
    let (result, _, g, d) := s.feed.drain refuse () 0 s.channel
    result = .error (.observer "full") ∧
      s.feed.handed Feed.accept () s.channel =
        s.feed.handed refuse () s.channel ++ g.handed Feed.accept () d := by
  intro refuse s last
  have hnone : (last.feed.next last.channel).1 = .ok none := by
    have hanswer : (last.feed.next last.channel).1.toOption.map Option.isNone = some true := by
      decide +kernel
    revert hanswer
    rcases (last.feed.next last.channel).1 with _ | (_ | _)
    · exact nofun
    · exact fun _ => rfl
    · exact nofun
  have hrefused : (s.feed.drain refuse () 0 s.channel).1 = .error (.observer "full") := by
    have hlength : s.feed.pending.length = 1 := by decide +kernel
    obtain ⟨n, hpending⟩ := List.length_eq_one_iff.1 hlength
    exact congrArg Prod.fst (Feed.drain_of_refused (Feed.next_of_pending hpending) rfl 0)
  obtain ⟨-, -, -, -, -, hexhausted, -⟩ := updates_delivered_once .all 2
    (overtaken ++ [.send (producing 4 []), .call .next, .call .next, .call .next])
  obtain ⟨-, -, -, -, -, -, hobserved⟩ := updates_delivered_once .all 2 overtaken
  refine ⟨⟨by decide +kernel, by decide +kernel, by decide +kernel, (hexhausted hnone).1⟩, hrefused,
    ((hobserved refuse ()).2 "full" hrefused).1⟩

end Delivery

end LedgerQuery
