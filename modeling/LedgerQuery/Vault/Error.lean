/-
  LedgerQuery.Vault.Error

  Why a vault refuses a transaction or a query.
-/
import LedgerQuery.Record.Reference

namespace LedgerQuery

/-- A refusal of a vault. -/
inductive VaultError where
  | lockPoisoned
  | recordNotFound (r : RecordRef)
  | alreadyConsumed (r : RecordRef)
  | duplicateTransaction (id : TransactionId)
  | chainViolation (r : RecordRef) (reason : String)
  | pageTooLarge (requested max : UInt32)
  | record (e : RecordError)
  | config (reason : String)
  deriving DecidableEq

namespace VaultError

/-- The wording of a refusal. -/
def message : VaultError → String
  | .lockPoisoned => "vault lock poisoned"
  | .recordNotFound r => "record not found: " ++ r.render
  | .alreadyConsumed r => "record already consumed: " ++ r.render
  | .duplicateTransaction id => "transaction already recorded: " ++ id.render
  | .chainViolation r reason => "chain violation at " ++ r.render ++ ": " ++ reason
  | .pageTooLarge requested max =>
    "page size " ++ Numeral.render requested.toNat ++ " exceeds maximum " ++
      Numeral.render max.toNat
  | .record e => "record type error: " ++ e.message
  | .config reason => "configuration error: " ++ reason

end VaultError

end LedgerQuery
