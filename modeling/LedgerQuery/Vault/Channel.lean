/-
  LedgerQuery.Vault.Channel

  A bounded channel with one receiver. It holds a power of two of values; when it is full the
  oldest gives way, and the receiver is told once how many it has missed before it goes on with
  the oldest that is left.
-/

namespace LedgerQuery

/-- A channel: what it holds for its receiver, oldest first, how many values the receiver has
    missed since it last read, and whether either end is gone. -/
structure Channel (α : Type) where
  capacity : Nat
  held : List α := []
  missed : Nat := 0
  isOpen : Bool := true
  attached : Bool := true

/-- What a receiver finds in a channel. -/
inductive Reading (α : Type) where
  | value (x : α)
  | lagged (missed : Nat)
  | empty
  | closed
  deriving Repr

namespace Channel

variable {α : Type}

/-- The least power of two that is not below a number. -/
def powerFrom (n : Nat) : Nat := if n ≤ 1 then 1 else 1 <<< ((n - 1).log2 + 1)

/-- A channel that holds at least as many values as asked for, and at least one. -/
def ofCapacity (n : Nat) : Channel α := { capacity := powerFrom n }

/-- Put a value in; none if nobody receives. -/
def send? (x : α) (c : Channel α) : Option (Channel α) :=
  if c.attached then
    if c.held.length < c.capacity then some { c with held := c.held ++ [x] }
    -- Full: the oldest value gives way.
    else some { c with held := c.held.drop 1 ++ [x], missed := c.missed + 1 }
  else none

/-- Take the next thing out. -/
def receive (c : Channel α) : Reading α × Channel α :=
  if c.missed = 0 then
    match c.held with
    | x :: rest => (.value x, { c with held := rest })
    | [] => (if c.isOpen then .empty else .closed, c)
  else (.lagged c.missed, { c with missed := 0 })

/-- The channel after its sender is gone. -/
def close (c : Channel α) : Channel α := { c with isOpen := false }

/-- The channel after its receiver is gone. -/
def detach (c : Channel α) : Channel α := { c with attached := false }

/-- How many readings a receiver has before it. -/
def unread (c : Channel α) : Nat := c.held.length + (if c.missed = 0 then 0 else 1)

theorem unread_lt_of_receive_value {c d : Channel α} {x : α}
    (h : c.receive = (.value x, d)) : d.unread < c.unread := by
  unfold receive at h
  split at h
  · rename_i hnone
    split at h
    · rename_i y rest hheld
      cases h
      simp [unread, hheld, hnone]
    · split at h <;> cases h
  · cases h

theorem unread_lt_of_receive_lagged {c d : Channel α} {n : Nat}
    (h : c.receive = (.lagged n, d)) : d.unread < c.unread := by
  unfold receive at h
  split at h
  · split at h
    · cases h
    · split at h <;> cases h
  · rename_i hsome
    cases h
    simp [unread, hsome]

end Channel

end LedgerQuery
