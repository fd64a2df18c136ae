/-
  LedgerQuery.Backend.Basic

  Where queries are answered. A backend works on some state, and says how large a page may be
  asked of it.
-/
import LedgerQuery.Attempt
import LedgerQuery.Vault.Basic
import LedgerQuery.Wire.Error

namespace LedgerQuery

/-- A way to have queries answered in a state `σ`. -/
structure Backend (σ : Type) where
  /-- One page of the records that a query matches. -/
  query : Query → Attempt σ BackendError (Page StoredRecord)
  /-- One page, and a stream of the later changes. -/
  subscribe : Query → Attempt σ BackendError (Page StoredRecord × StreamId)
  /-- Let go of a stream. -/
  release : StreamId → σ → σ
  /-- The largest page worth asking for. -/
  maxPageSize : σ → UInt32

end LedgerQuery
