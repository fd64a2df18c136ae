/-
  LedgerQuery.Proofs.Vault.Stream

  Streams whose receiver keeps up, and streams that are let go. A channel loses nothing as long as
  its receiver is no further behind than the capacity (`Channel.exists_send?`); then a commit puts
  what concerns the tracker behind what the channel holds (`Tracker.exists_notify?`), and the vault
  finds the tracker under its stream as before (`Vault.find?_filterMap_notify?`). The tracker of a
  stream that was let go is forgotten at the next commit, whatever happens until then
  (`Vault.Abandoned`).
-/
import LedgerQuery.Proofs.Vault.Reachable

namespace LedgerQuery

/-! ## Channels -/

namespace Channel

variable {α : Type} {c : Channel α} {x : α}

/-- A channel holds as many values as asked for. -/
theorem le_powerFrom (n : Nat) : max n 1 ≤ powerFrom n := by
  unfold powerFrom
  split
  · omega
  · have hlt : n - 1 < 1 <<< ((n - 1).log2 + 1) := by
      rw [Nat.one_shiftLeft]
      exact Nat.lt_log2_self
    omega

/-- How many values a receiver has still to read or has lost since it last read. -/
def behind (c : Channel α) : Nat := c.held.length + c.missed

/-- A value that is put into a channel comes after those it holds, unless its receiver is further
    behind than the channel can hold. -/
theorem exists_send? (hattached : c.attached = true) (hmissed : c.missed = 0) (x : α) :
    ∃ d, c.send? x = some d ∧
      (d.behind ≤ c.capacity → d = { c with held := c.held ++ [x] }) := by
  unfold send?
  rw [if_pos hattached]
  split
  · exact ⟨_, rfl, fun _ => rfl⟩
  · refine ⟨_, rfl, fun hbehind => ?_⟩
    -- Giving way, the oldest value counts as missed, one more than the channel can hold.
    simp only [behind, List.length_append, List.length_drop, List.length_singleton,
      hmissed] at hbehind
    omega

end Channel

/-! ## Trackers -/

namespace Tracker

variable {t : Tracker} {u : Update}

/-- A tracker that is listened to stays. What concerns it is put into its channel, unless it is
    nothing. -/
theorem exists_notify? (hattached : t.channel.attached = true) (hmissed : t.channel.missed = 0)
    (u : Update) :
    ∃ d, t.notify? u = some { t with channel := d } ∧
      ((t.restrict u).isEmpty = true → d = t.channel) ∧
      (¬ (t.restrict u).isEmpty = true → d.behind ≤ t.channel.capacity →
        d = { t.channel with held := t.channel.held ++ [t.restrict u] }) := by
  unfold notify?
  dsimp only
  by_cases hnone : (t.restrict u).isEmpty = true
  · refine ⟨t.channel, ?_, fun _ => rfl, fun hsome => absurd hnone hsome⟩
    rw [if_pos hnone, if_pos hattached]
  · obtain ⟨d, hsend, hd⟩ := Channel.exists_send? hattached hmissed (t.restrict u)
    refine ⟨d, ?_, fun h => absurd h hnone, fun _ => hd⟩
    rw [if_neg hnone, hsend]
    rfl

/-- Whether somebody listens to a tracker. -/
def heard (t : Tracker) : Bool := t.channel.attached

/-- A tracker that nobody listens to is forgotten. -/
theorem notify?_of_not_heard (h : t.heard = false) : t.notify? u = none := by
  have hdetached : t.channel.attached = false := h
  unfold notify?
  dsimp only
  split
  · rw [hdetached]
    rfl
  · rw [Channel.send?, hdetached]
    rfl

end Tracker

/-! ## The tracker of a stream -/

namespace Vault

variable {v : Vault} {stream : StreamId} {trackers : List Tracker} {old new : Tracker} {u : Update}

/-- The tracker of a stream, once told of a change, is found under the stream again. -/
theorem find?_filterMap_notify? (h : trackers.find? (·.stream = stream) = some old)
    (hnotify : old.notify? u = some new) :
    (trackers.filterMap (Tracker.notify? u)).find? (·.stream = stream) = some new := by
  induction trackers with
  | nil => cases h
  | cons t rest ih =>
    by_cases ht : t.stream = stream
    · rw [List.find?_cons_of_pos (by simpa using ht)] at h
      cases h
      have hnew : new.stream = stream := (of_notify?_eq_some hnotify).1.trans ht
      rw [List.filterMap_cons_some hnotify, List.find?_cons_of_pos (by simpa using hnew)]
    · rw [List.find?_cons_of_neg (by simpa using ht)] at h
      cases hother : t.notify? u with
      | none => rw [List.filterMap_cons_none hother, ih h]
      | some told =>
        have hne : told.stream ≠ stream := (of_notify?_eq_some hother).1 ▸ ht
        rw [List.filterMap_cons_some hother, List.find?_cons_of_neg (by simpa using hne), ih h]

/-- The tracker of a stream is found again after its channel has changed. -/
theorem find?_updateChannel (h : v.trackers.find? (·.stream = stream) = some old)
    (change : Channel Update → Channel Update) :
    (v.updateChannel stream change).trackers.find? (·.stream = stream) =
      some { old with channel := change old.channel } := by
  have hold : old.stream = stream := by simpa using List.find?_some h
  have hname : ((fun t : Tracker => decide (t.stream = stream)) ∘ fun t =>
      if t.stream = stream then { t with channel := change t.channel } else t) =
      fun t => decide (t.stream = stream) := by
    funext t
    rw [Function.comp_apply]
    split <;> rfl
  rw [updateChannel, List.find?_map, hname, h, Option.map_some, if_pos hold]

/-- A new tracker is found under its stream, as it is the first of that name. -/
theorem find?_subscribe (hv : v.Reachable) (c : Criteria) :
    (v.subscribe c).2.trackers.find? (·.stream = v.nextStream) =
      some ⟨v.nextStream, c, .ofCapacity v.config.channelCapacity.toNat⟩ := by
  have hnone : v.trackers.find? (·.stream = v.nextStream) = none := by
    refine List.find?_eq_none.2 fun t ht => ?_
    have hlt := hv.stream_lt t ht
    simpa using Nat.ne_of_lt hlt
  rw [subscribe, List.find?_append, hnone]
  simp

/-- A new tracker whose stream is let go again; the others are of other streams. -/
theorem trackers_release_subscribe (hv : v.Named) (c : Criteria) :
    ((v.subscribe c).2.release v.nextStream).trackers = v.trackers ++
      [⟨v.nextStream, c, (Channel.ofCapacity v.config.channelCapacity.toNat).detach⟩] := by
  have hothers : v.trackers.map (fun t =>
      if t.stream = v.nextStream then { t with channel := t.channel.detach } else t) =
        v.trackers := by
    refine (List.map_congr_left fun t ht => ?_).trans (List.map_id _)
    exact if_neg (Nat.ne_of_lt (hv _ (List.mem_map_of_mem ht)))
  show (v.trackers ++ [_]).map _ = _
  rw [List.map_append, hothers, List.map_singleton, if_pos rfl]

/-! ## Streams that are let go -/

variable {w : Vault} {now : Instant} {t : Transaction}

/-- A stream that was handed out and that nobody listens to any more. -/
def Abandoned (v : Vault) (stream : StreamId) : Prop :=
  stream < v.nextStream ∧ ∀ t ∈ v.trackers, t.stream = stream → t.heard = false

/-- A tracker that is heard after a stream was let go is of another stream, and was heard
    before. -/
theorem of_heard_release {other : StreamId} {tracker : Tracker}
    (hmem : tracker ∈ (v.release other).trackers) (hheard : tracker.heard = true) :
    tracker ∈ v.trackers ∧ tracker.stream ≠ other := by
  obtain ⟨before, hbefore, hchange⟩ := List.mem_map.1 hmem
  by_cases hname : before.stream = other
  · rw [if_pos hname] at hchange
    rw [← hchange] at hheard
    cases hheard
  · rw [if_neg hname] at hchange
    rw [← hchange]
    exact ⟨hbefore, hname⟩

/-- A stream that is let go is abandoned. -/
theorem Abandoned.of_release (h : stream < v.nextStream) : (v.release stream).Abandoned stream := by
  refine ⟨h, fun tracker hmem hname => ?_⟩
  rw [← Bool.not_eq_true]
  intro hheard
  exact (of_heard_release hmem hheard).2 hname

/-- Letting go of a stream takes up none that is abandoned. -/
theorem Abandoned.release (h : v.Abandoned stream) (other : StreamId) :
    (v.release other).Abandoned stream := by
  refine ⟨h.1, fun tracker hmem hname => ?_⟩
  rw [← Bool.not_eq_true]
  intro hheard
  have hbefore := h.2 tracker (of_heard_release hmem hheard).1 hname
  rw [hbefore] at hheard
  cases hheard

/-- A new tracker gets another stream. -/
theorem Abandoned.subscribe (h : v.Abandoned stream) (c : Criteria) :
    (v.subscribe c).2.Abandoned stream := by
  refine ⟨Nat.lt_succ_of_lt h.1, fun tracker hmem hname => ?_⟩
  rcases List.mem_append.1 hmem with hold | hnew
  · exact h.2 tracker hold hname
  · rw [List.mem_singleton.1 hnew] at hname
    exact absurd hname.symm (Nat.ne_of_lt h.1)

/-- The next commit forgets the tracker of an abandoned stream. -/
theorem Abandoned.not_mem_commit (h : v.Abandoned stream) (hcommit : v.commit now t = .ok (u, w)) :
    ∀ tracker ∈ w.trackers, tracker.stream ≠ stream := by
  intro tracker hmem hname
  obtain ⟨-, hw⟩ := commit_eq_ok hcommit
  rw [hw] at hmem
  obtain ⟨before, hbefore, hnotify⟩ := List.mem_filterMap.1 hmem
  have hstream : before.stream = stream := (of_notify?_eq_some hnotify).1 ▸ hname
  rw [Tracker.notify?_of_not_heard (h.2 before hbefore hstream)] at hnotify
  cases hnotify

/-- No commit brings it back. -/
theorem Abandoned.commit (h : v.Abandoned stream) (hcommit : v.commit now t = .ok (u, w)) :
    w.Abandoned stream := by
  refine ⟨(streams_commit hcommit).2 ▸ h.1, fun tracker hmem hname => ?_⟩
  exact absurd hname (h.not_mem_commit hcommit tracker hmem)

end Vault

end LedgerQuery
