/-
  LedgerQuery.Attempt

  Work that may change a state and may fail; what it has changed stays changed when it fails.
-/

namespace LedgerQuery

/-- Work on a state `σ` that ends with a value or a failure. -/
abbrev Attempt (σ ε α : Type) := ExceptT ε (StateM σ) α

namespace Attempt

variable {σ ε α : Type}

/-- Do the work on a state. -/
def on (x : Attempt σ ε α) (s : σ) : Except ε α × σ := x s

/-- Work given by what it does on each state. -/
def of (f : σ → Except ε α × σ) : Attempt σ ε α := f

/-- An outcome that is known, without change. -/
def known (outcome : Except ε α) : Attempt σ ε α := of fun s => (outcome, s)

/-- The outcome that a state has, without change. -/
def look (outcome : σ → Except ε α) : Attempt σ ε α := of fun s => (outcome s, s)

/-- The same work with failures of another type. -/
def mapError {δ : Type} (f : ε → δ) (x : Attempt σ ε α) : Attempt σ δ α :=
  of fun s => let (outcome, s) := x.on s; (outcome.mapError f, s)

@[simp] theorem on_of (f : σ → Except ε α × σ) (s : σ) : (of f).on s = f s := rfl

@[simp] theorem on_known (outcome : Except ε α) (s : σ) :
    (known outcome : Attempt σ ε α).on s = (outcome, s) := rfl

@[simp] theorem on_look (outcome : σ → Except ε α) (s : σ) :
    (look outcome).on s = (outcome s, s) := rfl

@[simp] theorem on_pure (a : α) (s : σ) : (pure a : Attempt σ ε α).on s = (.ok a, s) := rfl

@[simp] theorem on_throw (e : ε) (s : σ) : (throw e : Attempt σ ε α).on s = (.error e, s) := rfl

theorem on_bind {β : Type} (x : Attempt σ ε α) (f : α → Attempt σ ε β) (s : σ) :
    (x >>= f).on s = match x.on s with
      | (.ok a, s) => (f a).on s
      | (.error e, s) => (.error e, s) := by
  show (match x s with | (outcome, s) => (ExceptT.bindCont f outcome) s) = _
  unfold on
  rcases x s with ⟨_ | _, _⟩ <;> rfl

theorem on_mapError {δ : Type} (f : ε → δ) (x : Attempt σ ε α) (s : σ) :
    (x.mapError f).on s = ((x.on s).1.mapError f, (x.on s).2) := rfl

end Attempt

end LedgerQuery
