/-
  LedgerQuery.Proofs.Service.Feed

  What lies ahead of a feed whose channel has lost nothing: the notifications that are pending,
  and those of the changes that the channel holds. A change that is sent adds to the end
  (`Ahead.send`), and reading the feed takes the first one away (`Ahead.next`).
-/
import Mathlib.Data.List.Forall2
import LedgerQuery.Service.Feed

namespace LedgerQuery.Feed

variable {α : Type} [RecordState α]

variable {f : Feed α} {c : Channel Update} {u : Update} {ahead notices : List (Notification α)}

/-- The notifications that lie ahead of a feed: the pending ones, and those of the changes that
    its channel holds, none of which fails to be viewed. -/
def Ahead (f : Feed α) (c : Channel Update) (ahead : List (Notification α)) : Prop :=
  ∃ batches, List.Forall₂ (fun u notices => Notification.ofUpdate α f.status u = .ok notices)
    c.held batches ∧ ahead = f.pending ++ batches.flatten

/-- A change that comes into the channel lies behind the others. -/
theorem Ahead.send (h : f.Ahead c ahead) (hu : Notification.ofUpdate α f.status u = .ok notices) :
    f.Ahead { c with held := c.held ++ [u] } (ahead ++ notices) := by
  obtain ⟨batches, hbatches, rfl⟩ := h
  refine ⟨batches ++ [notices], List.rel_append hbatches (.cons hu .nil), ?_⟩
  rw [List.flatten_concat, List.append_assoc]

theorem next_of_pending {n : Notification α} {rest : List (Notification α)}
    (h : f.pending = n :: rest) : f.next c = (.ok (some n), { f with pending := rest }, c) := by
  rw [next]
  simp only [h]

/-- Without pending notifications, those of the first change in the channel are next. -/
theorem next_of_held {held : List Update} (hpending : f.pending = []) (hmissed : c.missed = 0)
    (hheld : c.held = u :: held) (hu : Notification.ofUpdate α f.status u = .ok notices) :
    f.next c = next { f with pending := notices } { c with held } := by
  have hread : c.receive = (.value u, { c with held }) := by
    simp only [Channel.receive, hmissed, hheld, ↓reduceIte]
  rw [next]
  simp only [hpending]
  split
  · rename_i hvalue
    rw [hread] at hvalue
    cases hvalue
    rw [hu]
  all_goals
    rename_i hother
    rw [hread] at hother
    cases hother

theorem next_of_empty (hpending : f.pending = []) (hmissed : c.missed = 0) (hheld : c.held = []) :
    f.next c = (.ok none, f, c) := by
  have hread : c.receive = (if c.isOpen then .empty else .closed, c) := by
    simp only [Channel.receive, hmissed, hheld, ↓reduceIte]
  rw [next]
  simp only [hpending]
  cases hopen : c.isOpen <;> rw [hopen] at hread <;> split <;> rename_i hother <;>
    rw [hread] at hother <;> cases hother <;> rfl

/-- A feed hands over the first notification that lies ahead of it, or none if there is none. -/
theorem Ahead.next (h : f.Ahead c ahead) (hmissed : c.missed = 0) :
    ∃ (g : Feed α) (held : List Update), f.next c = (.ok ahead.head?, g, { c with held }) ∧
      g.status = f.status ∧ g.Ahead { c with held } ahead.tail := by
  obtain ⟨batches, hbatches, rfl⟩ := h
  cases hpending : f.pending with
  | cons n rest =>
    exact ⟨_, c.held, next_of_pending hpending, rfl, batches, hbatches, rfl⟩
  | nil =>
    -- On the changes in the channel: those that nothing is told of are read and left behind.
    generalize hstatus : f.status = status at hbatches
    generalize hheld : c.held = held at hbatches
    induction hbatches generalizing f c with
    | nil =>
      exact ⟨f, c.held, next_of_empty hpending hmissed hheld, hstatus, [], hheld ▸ .nil, by
        rw [hpending]; rfl⟩
    | @cons u notices rest batches hu hrest ih =>
      rw [next_of_held hpending hmissed hheld (hstatus ▸ hu)]
      cases notices with
      | nil => exact @ih { f with pending := [] } { c with held := rest } hmissed rfl hstatus rfl
      | cons n notices =>
        exact ⟨{ f with pending := notices }, rest, next_of_pending rfl, hstatus, batches,
          hstatus ▸ hrest, rfl⟩

end LedgerQuery.Feed
