/-
  LedgerQuery.Proofs.Service.Account

  The account of a call to a feed: how many of the changes it takes that the channel holds, which
  notifications it hands over, and which failures it meets. What was pending and what is told of
  the changes it takes is handed over or pending after it, and nothing else (`Feed.Account`);
  accounts add up (`Feed.Account.trans`), and every call has one. An observer is shown the
  notifications in order until it refuses one (`Feed.settled_drain`), and the others are left to
  the next call (`Feed.kept_of_refused`).
-/
import LedgerQuery.Service.Feed

namespace LedgerQuery

/-! ## Channels -/

namespace Channel

variable {α : Type} {c d : Channel α} {r : Reading α}

/-- What a reading says of the channel before and after: the first value is taken if none was
    missed, and what was missed is told once. -/
def Found (c d : Channel α) : Reading α → Prop
  | .value x => c.missed = 0 ∧ ∃ rest, c.held = x :: rest ∧ d = { c with held := rest }
  | .lagged missed => missed = c.missed ∧ d = { c with missed := 0 }
  | .empty | .closed => c.missed = 0 ∧ c.held = [] ∧ d = c

theorem found_of_receive (h : c.receive = (r, d)) : c.Found d r := by
  unfold receive at h
  split at h
  · rename_i hmissed
    split at h
    · rename_i x rest hheld
      cases h
      exact ⟨hmissed, rest, hheld, rfl⟩
    · rename_i hheld
      cases h
      cases c.isOpen <;> exact ⟨hmissed, hheld, rfl⟩
  · cases h
    exact ⟨rfl, rfl⟩

end Channel

/-! ## What a change is told as -/

/-- What becomes of a change: its notifications, or a failure. -/
abbrev Telling (α : Type) := Except QueryError (List (Notification α))

namespace Telling

variable {α : Type}

/-- The notifications of a change; none if it cannot be viewed. -/
def notices : Telling α → List (Notification α)
  | .ok notices => notices
  | .error _ => []

/-- The failure to view a change. -/
def failure? : Telling α → Option QueryError
  | .ok _ => none
  | .error e => some e

end Telling

namespace Notification

variable {α β : Type} [RecordState α] {x : Except QueryError β}

/-- Whether work fails only on records that cannot be viewed. -/
def FailsOnRecords (x : Except QueryError β) : Prop := ∀ e, x = .error e → ∃ r, e = .record r

omit [RecordState α] in
theorem FailsOnRecords.bind {k : β → Telling α} (hx : FailsOnRecords x)
    (hk : ∀ b, FailsOnRecords (k b)) : FailsOnRecords (x >>= k) := by
  intro e he
  cases x with
  | error reason => exact hx e (congrArg Except.error (Except.error.inj he))
  | ok b => exact hk b e he

theorem failsOnRecords_ofRecords (outcome : RecordStatus) (id : TransactionId)
    (rs : List StoredRecord) : FailsOnRecords (ofRecords α outcome id rs) := by
  intro e he
  unfold ofRecords at he
  dsimp only at he
  revert he
  cases List.mapM (m := Except RecordError) _ _ with
  | ok _ => exact nofun
  | error reason => exact fun he => ⟨reason, (Except.error.inj he).symm⟩

/-- A change that cannot be viewed has a record that cannot. -/
theorem failsOnRecords_ofUpdate (status : StatusFilter) (u : Update) :
    FailsOnRecords (ofUpdate α status u) := by
  have hconsumed := failsOnRecords_ofRecords (α := α) .consumed u.transaction u.consumed
  have hproduced := failsOnRecords_ofRecords (α := α) .unconsumed u.transaction u.produced
  cases status with
  | all => exact hconsumed.bind fun _ => hproduced.bind fun _ => nofun
  | unconsumed => exact hproduced.bind fun _ => nofun
  | consumed => exact hconsumed.bind fun _ => nofun

end Notification

namespace Feed

variable {α : Type} [RecordState α]

variable {f g h : Feed α} {c d e : Channel Update}

/-! ## Accounts of calls -/

/-- The answer of a call as what it hands over. -/
def answered : Except QueryError (Option (Notification α)) → List (Notification α)
  | .ok (some n) => [n]
  | .ok none | .error _ => []

/-- The failure that a call ends with, unless it is the observer's. -/
def failures {β : Type} (result : Except QueryError β) : List QueryError :=
  match result with
  | .ok _ => []
  | .error e =>
    match e with
    | .observer _ => []
    | e => [e]

/-- What changes are told as. -/
def tellings (f : Feed α) (us : List Update) : List (Telling α) :=
  us.map (Notification.ofUpdate α f.status)

/-- The account of a call: how many of the changes it has taken that the channel held, what it has
    handed over and which failures it has met. What was missed is forgotten at the first reading. -/
structure Account (f : Feed α) (c : Channel Update) (taken : Nat)
    (handed : List (Notification α)) (failed : List QueryError) (g : Feed α)
    (d : Channel Update) : Prop where
  status : g.status = f.status
  bounded : taken ≤ c.held.length
  channel : { d with held := c.held, missed := c.missed } = c
  held : d.held = c.held.drop taken
  missed : d.missed = 0 ∨ d.missed = c.missed ∧ taken = 0
  handed : f.pending ++ (f.tellings (c.held.take taken)).flatMap Telling.notices =
    handed ++ g.pending
  failed : (f.tellings (c.held.take taken)).filterMap Telling.failure? = failed

variable {k l : Nat} {ns ns' : List (Notification α)} {es es' : List QueryError}

/-- The accounts of two calls, one after the other, add up. -/
theorem Account.trans (hfg : Account f c k ns es g d) (hgh : Account g d l ns' es' h e) :
    Account f c (k + l) (ns ++ ns') (es ++ es') h e := by
  have hheld := hfg.held
  have htaken : f.tellings (c.held.take (k + l)) =
      f.tellings (c.held.take k) ++ g.tellings (d.held.take l) := by
    rw [tellings, tellings, tellings, hfg.status, hheld, List.take_add, List.map_append]
  have hbounded := hgh.bounded
  rw [hheld, List.length_drop] at hbounded
  have hfirst := hfg.bounded
  refine ⟨hgh.status.trans hfg.status, by omega, ?_, ?_, ?_, ?_, ?_⟩
  · -- The second call leaves alone what the first one has left alone.
    have hchannel := congrArg
      (fun x : Channel Update => { x with held := c.held, missed := c.missed }) hgh.channel
    exact hchannel.trans hfg.channel
  · rw [hgh.held, hheld, List.drop_drop]
  · rcases hgh.missed with hnone | ⟨hsame, rfl⟩
    · exact .inl hnone
    · rw [hsame]
      exact hfg.missed
  · rw [htaken, List.flatMap_append, ← List.append_assoc, hfg.handed, List.append_assoc,
      hgh.handed, List.append_assoc]
  · rw [htaken, List.filterMap_append, hfg.failed, hgh.failed]

/-- Nothing is read while notifications are pending. -/
theorem Account.of_pending {n : Notification α} {rest : List (Notification α)}
    (hpending : f.pending = n :: rest) : Account f c 0 [n] [] { f with pending := rest } c where
  status := rfl
  bounded := Nat.zero_le _
  channel := rfl
  held := rfl
  missed := .inr ⟨rfl, rfl⟩
  handed := by
    rw [hpending]
    exact List.append_nil _
  failed := rfl

/-- A change is read when no notifications are pending; they are then those of the change. -/
theorem Account.of_value {u : Update} {rest : List Update} (hpending : f.pending = [])
    (hmissed : c.missed = 0) (hheld : c.held = u :: rest) :
    Account f c 1 [] (Telling.failure? (Notification.ofUpdate α f.status u)).toList
      { f with pending := Telling.notices (Notification.ofUpdate α f.status u) }
      { c with held := rest } where
  status := rfl
  bounded := by rw [hheld]; exact Nat.succ_le_succ (Nat.zero_le _)
  channel := rfl
  held := by rw [hheld]; rfl
  missed := .inl hmissed
  handed := by
    rw [hpending, hheld]
    exact List.flatMap_singleton _ _
  failed := by
    rw [hheld]
    cases htold : Notification.ofUpdate α f.status u with
    | ok _ => simp [tellings, htold, Telling.failure?]
    | error _ => simp [tellings, htold, Telling.failure?]

theorem Account.of_lagged : Account f c 0 [] [] f { c with missed := 0 } where
  status := rfl
  bounded := Nat.zero_le _
  channel := rfl
  held := rfl
  missed := .inl rfl
  handed := List.append_nil _
  failed := rfl

theorem Account.refl : Account f c 0 [] [] f c where
  status := rfl
  bounded := Nat.zero_le _
  channel := rfl
  held := rfl
  missed := .inr ⟨rfl, rfl⟩
  handed := List.append_nil _
  failed := rfl

/-- The account of asking for the next notification. -/
theorem exists_account_next {answer : Except QueryError (Option (Notification α))}
    (h : f.next c = (answer, g, d)) :
    ∃ k, Account f c k (answered answer) (failures answer) g d := by
  -- On the readings: a change of which nothing is told, and what was missed, are read past.
  fun_induction next f c with
  | case1 f c n rest hpending =>
    cases h
    exact ⟨0, .of_pending hpending⟩
  | case2 f c hpending u d' hread told htold ih =>
    obtain ⟨hmissed, rest, hheld, rfl⟩ := Channel.found_of_receive hread
    have hfirst := Account.of_value hpending hmissed hheld
    rw [htold] at hfirst
    obtain ⟨k, hlater⟩ := ih h
    exact ⟨1 + k, hfirst.trans hlater⟩
  | case3 f c hpending u d' hread e htold =>
    obtain ⟨hmissed, rest, hheld, rfl⟩ := Channel.found_of_receive hread
    have hfirst := Account.of_value hpending hmissed hheld
    obtain ⟨reason, rfl⟩ := Notification.failsOnRecords_ofUpdate f.status u e htold
    rw [htold, show Telling.notices (α := α) (.error _) = f.pending from hpending.symm] at hfirst
    cases h
    exact ⟨1, hfirst⟩
  | case4 f c hpending missed d' hread ih =>
    obtain ⟨-, rfl⟩ := Channel.found_of_receive hread
    obtain ⟨k, hlater⟩ := ih h
    exact ⟨0 + k, Account.of_lagged.trans hlater⟩
  | case5 f c hpending d' hread | case6 f c hpending d' hread =>
    cases h
    obtain ⟨-, -, rfl⟩ := Channel.found_of_receive hread
    exact ⟨0, .refl⟩

/-- Asking fails only on a change that cannot be viewed. -/
theorem failsOnRecords_next (f : Feed α) (c : Channel Update) :
    Notification.FailsOnRecords (f.next c).1 := by
  intro e h
  fun_induction next f c with
  | case1 | case5 | case6 => cases h
  | case2 _ _ _ _ _ _ _ _ ih | case4 _ _ _ _ _ _ ih => exact ih h
  | case3 f c hpending u d hread reason htold =>
    cases h
    exact Notification.failsOnRecords_ofUpdate f.status u _ htold

/-- If there is no notification yet, everything has been read and handed over. -/
theorem of_next_none (h : f.next c = (.ok none, g, d)) :
    g.pending = [] ∧ d.held = [] ∧ d.missed = 0 := by
  fun_induction next f c with
  | case1 => cases h
  | case2 f c _ u d' hread _ _ ih => exact ih h
  | case3 => cases h
  | case4 f c _ missed d' hread ih => exact ih h
  | case5 f c hpending d' hread | case6 f c hpending d' hread =>
    obtain ⟨hmissed, hheld, rfl⟩ := Channel.found_of_receive hread
    cases h
    exact ⟨hpending, hheld, hmissed⟩

/-! ## What an observer is handed -/

variable {β : Type} {observe : β → Notification α → Except String β} {seen : β}

/-- The notifications that an observer is handed when the feed is drained, one that it refuses
    among them. -/
def handed (observe : β → Notification α → Except String β) (seen : β) (f : Feed α)
    (c : Channel Update) : List (Notification α) :=
  match _taken : f.next c with
  | (.ok (some n), g, d) =>
    match observe seen n with
    | .ok seen => n :: handed observe seen g d
    | .error _ => [n]
  | (.ok none, _, _) | (.error _, _, _) => []
termination_by (c.unread, f.pending.length)
decreasing_by
  rcases next_progress _taken with hless | ⟨hsame, hless⟩
  · exact Prod.Lex.left _ _ hless
  · exact hsame ▸ Prod.Lex.right _ hless

theorem handed_eq (observe : β → Notification α → Except String β) (seen : β) (f : Feed α)
    (c : Channel Update) : f.handed observe seen c =
      match f.next c with
      | (.ok (some n), g, d) =>
        match observe seen n with
        | .ok seen => n :: g.handed observe seen d
        | .error _ => [n]
      | (.ok none, _, _) | (.error _, _, _) => [] := by
  rw [handed]
  split <;> rename_i htaken <;> simp only [htaken]

theorem drain_eq (observe : β → Notification α → Except String β) (seen : β) (delivered : Nat)
    (f : Feed α) (c : Channel Update) : f.drain observe seen delivered c =
      match f.next c with
      | (.ok (some n), g, d) =>
        match observe seen n with
        | .ok seen => g.drain observe seen (delivered + 1) d
        | .error reason => (.error (.observer reason), seen, g, d)
      | (.ok none, g, d) => (.ok delivered, seen, g, d)
      | (.error e, g, d) => (.error e, seen, g, d) := by
  rw [drain]
  split
  · rename_i n g d htaken
    cases hshown : observe seen n <;> simp only [htaken, hshown]
  all_goals
    rename_i htaken
    simp only [htaken]

section Shown

variable {n : Notification α} {seen' : β} {reason : String}

theorem handed_of_accepted (htaken : f.next c = (.ok (some n), g, d))
    (haccepted : observe seen n = .ok seen') :
    f.handed observe seen c = n :: g.handed observe seen' d := by
  rw [handed_eq, htaken]
  dsimp only
  rw [haccepted]

theorem handed_of_refused (htaken : f.next c = (.ok (some n), g, d))
    (hrefused : observe seen n = .error reason) : f.handed observe seen c = [n] := by
  rw [handed_eq, htaken]
  dsimp only
  rw [hrefused]

theorem drain_of_accepted (htaken : f.next c = (.ok (some n), g, d))
    (haccepted : observe seen n = .ok seen') (delivered : Nat) :
    f.drain observe seen delivered c = g.drain observe seen' (delivered + 1) d := by
  rw [drain_eq, htaken]
  dsimp only
  rw [haccepted]

theorem drain_of_refused (htaken : f.next c = (.ok (some n), g, d))
    (hrefused : observe seen n = .error reason) (delivered : Nat) :
    f.drain observe seen delivered c = (.error (.observer reason), seen, g, d) := by
  rw [drain_eq, htaken]
  dsimp only
  rw [hrefused]

end Shown

/-- The account of draining a feed. -/
theorem exists_account_drain {delivered : Nat} {result : Except QueryError Nat} {last : β}
    (h : f.drain observe seen delivered c = (result, last, g, d)) :
    ∃ k, Account f c k (f.handed observe seen c) (failures result) g d := by
  fun_induction drain observe seen delivered f c with
  | case1 seen delivered f c n g' d' htaken seen' haccepted ih =>
    obtain ⟨k, hfirst⟩ := exists_account_next htaken
    obtain ⟨l, hlater⟩ := ih h
    rw [handed_of_accepted htaken haccepted]
    exact ⟨k + l, hfirst.trans hlater⟩
  | case2 seen delivered f c n g' d' htaken reason hrefused =>
    cases h
    rw [handed_of_refused htaken hrefused]
    exact exists_account_next htaken
  | case3 seen delivered f c g' d' htaken | case4 seen delivered f c e g' d' htaken =>
    cases h
    rw [handed_eq, htaken]
    exact exists_account_next htaken

/-- What the result of draining a feed says of the notifications that the observer was handed. It
    has accepted them all, unless it has refused the last one; then it was handed no more. -/
def Settled (observe : β → Notification α → Except String β) (seen : β) (delivered : Nat)
    (ns : List (Notification α)) (last : β) : Except QueryError Nat → Prop
  | .ok count => count = delivered + ns.length ∧ ns.foldlM observe seen = .ok last
  | .error (.observer reason) => ∃ accepted refused, ns = accepted ++ [refused] ∧
      accepted.foldlM observe seen = .ok last ∧ observe last refused = .error reason
  | .error _ => ns.foldlM observe seen = .ok last

omit [RecordState α] in
theorem Settled.cons {seen' last : β} {delivered : Nat} {n : Notification α}
    {result : Except QueryError Nat} (haccepted : observe seen n = .ok seen')
    (h : Settled observe seen' (delivered + 1) ns last result) :
    Settled observe seen delivered (n :: ns) last result := by
  have step (ms : List (Notification α)) :
      (n :: ms).foldlM observe seen = ms.foldlM observe seen' := by
    rw [List.foldlM_cons, haccepted]
    rfl
  cases result with
  | ok count =>
    obtain ⟨hcount, hfold⟩ := h
    refine ⟨?_, (step ns).trans hfold⟩
    rw [hcount, List.length_cons]
    omega
  | error e =>
    cases e with
    | observer reason =>
      -- Only here the notifications that were accepted are told apart from the one refused.
      obtain ⟨accepted, refused, rfl, hfold, hrefused⟩ := h
      exact ⟨n :: accepted, refused, rfl, (step accepted).trans hfold, hrefused⟩
    | _ => exact (step ns).trans h

/-- Draining applies the observer to what it is handed, in order, until it refuses one. -/
theorem settled_drain (observe : β → Notification α → Except String β) (seen : β)
    (delivered : Nat) (f : Feed α) (c : Channel Update) :
    Settled observe seen delivered (f.handed observe seen c)
      (f.drain observe seen delivered c).2.1 (f.drain observe seen delivered c).1 := by
  fun_induction drain observe seen delivered f c with
  | case1 seen delivered f c n g d htaken seen' haccepted ih =>
    rw [handed_of_accepted htaken haccepted]
    exact ih.cons haccepted
  | case2 seen delivered f c n g d htaken reason hrefused =>
    rw [handed_of_refused htaken hrefused]
    exact ⟨[], n, rfl, rfl, hrefused⟩
  | case3 seen delivered f c g d htaken =>
    rw [handed_eq, htaken]
    exact ⟨rfl, rfl⟩
  | case4 seen delivered f c e g d htaken =>
    obtain ⟨reason, rfl⟩ := failsOnRecords_next f c e (congrArg Prod.fst htaken)
    rw [handed_eq, htaken]
    rfl

/-- An observer that accepts every notification. -/
def accept (_ : Unit) (_ : Notification α) : Except String Unit := .ok ()

/-- An observer that refuses a notification leaves the others to the next call: from there on the
    feed goes on as if the refused one had been accepted. -/
theorem kept_of_refused {delivered : Nat} {reason : String} {last : β}
    (h : f.drain observe seen delivered c = (.error (.observer reason), last, g, d)) (k : Nat) :
    f.handed accept () c = f.handed observe seen c ++ g.handed accept () d ∧
      f.drain accept () k c = g.drain accept () (k + (f.handed observe seen c).length) d := by
  -- Both observers are shown the same up to the one that is refused, and there they part.
  fun_induction drain observe seen delivered f c generalizing k with
  | case1 seen delivered f c n g' d' htaken seen' haccepted ih =>
    have haccept : accept () n = .ok () := rfl
    obtain ⟨hhanded, hdrain⟩ := ih h (k + 1)
    rw [handed_of_accepted htaken haccepted, handed_of_accepted htaken haccept,
      drain_of_accepted htaken haccept, hhanded, hdrain, List.length_cons, Nat.add_right_comm,
      Nat.add_assoc]
    exact ⟨rfl, rfl⟩
  | case2 seen delivered f c n g' d' htaken reason hrefused =>
    have haccept : accept () n = .ok () := rfl
    cases h
    rw [handed_of_refused htaken hrefused, handed_of_accepted htaken haccept,
      drain_of_accepted htaken haccept]
    exact ⟨rfl, rfl⟩
  | case3 => cases h
  | case4 seen delivered f c e g d htaken =>
    obtain ⟨reason, rfl⟩ := failsOnRecords_next f c e (congrArg Prod.fst htaken)
    cases h

end Feed

end LedgerQuery
