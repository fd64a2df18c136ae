/-
  LedgerQuery.Service.Feed

  A feed of notifications over a channel of changes. The notifications of a change are handed
  over one by one before the channel is read again. A change that cannot be viewed is a failure
  once and then left out, and so are changes that the channel has lost, without a failure.
-/
import LedgerQuery.Service.Notification
import LedgerQuery.Vault.Channel

namespace LedgerQuery

/-- A feed: which changes it tells of, and the notifications that are to be handed over before
    the channel is read again. -/
structure Feed (α : Type) where
  status : StatusFilter
  pending : List (Notification α) := []

namespace Feed

variable {α : Type} [RecordState α]

/-- The next notification, if there is one yet. -/
def next (f : Feed α) (c : Channel Update) :
    Except QueryError (Option (Notification α)) × Feed α × Channel Update :=
  match f.pending with
  | n :: rest => (.ok (some n), { f with pending := rest }, c)
  | [] =>
    match _read : c.receive with
    | (.value u, d) =>
      match Notification.ofUpdate α f.status u with
      | .ok pending => next { f with pending } d
      | .error e => (.error e, f, d)
    -- What was lost cannot be told of; the feed goes on with what is left.
    | (.lagged _, d) => next f d
    | (.empty, d) | (.closed, d) => (.ok none, f, d)
termination_by c.unread
decreasing_by
  · exact Channel.unread_lt_of_receive_value _read
  · exact Channel.unread_lt_of_receive_lagged _read

/-- A notification that is handed over leaves less to read in the channel, or as much in the
    channel and less in the feed. -/
theorem next_progress {f g : Feed α} {c d : Channel Update} {n : Notification α}
    (h : f.next c = (.ok (some n), g, d)) :
    d.unread < c.unread ∨ (d.unread = c.unread ∧ g.pending.length < f.pending.length) := by
  fun_induction next f c with
  | case1 f c m rest hpending =>
    cases h
    exact .inr ⟨rfl, by simp [hpending]⟩
  | case2 f c _ u e hread ns _ ih =>
    have hless := Channel.unread_lt_of_receive_value hread
    rcases ih h with hlater | ⟨hsame, _⟩ <;> exact .inl (by omega)
  | case3 => cases h
  | case4 f c _ missed e hread ih =>
    have hless := Channel.unread_lt_of_receive_lagged hread
    rcases ih h with hlater | ⟨hsame, _⟩ <;> exact .inl (by omega)
  | case5 => cases h
  | case6 => cases h

/-- Hand notifications to an observer until there are none or it refuses one. The observer
    carries something along; how many it has accepted is counted. -/
def drain {β : Type} (observe : β → Notification α → Except String β) (seen : β)
    (delivered : Nat) (f : Feed α) (c : Channel Update) :
    Except QueryError Nat × β × Feed α × Channel Update :=
  match _taken : f.next c with
  | (.ok (some n), g, d) =>
    match observe seen n with
    | .ok seen => drain observe seen (delivered + 1) g d
    | .error reason => (.error (.observer reason), seen, g, d)
  | (.ok none, g, d) => (.ok delivered, seen, g, d)
  | (.error e, g, d) => (.error e, seen, g, d)
termination_by (c.unread, f.pending.length)
decreasing_by
  rcases next_progress _taken with hless | ⟨hsame, hless⟩
  · exact Prod.Lex.left _ _ hless
  · exact hsame ▸ Prod.Lex.right _ hless

end Feed

end LedgerQuery
