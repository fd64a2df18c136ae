/-
  LedgerQuery.Vault.Config

  The settings of a vault.
-/
import LedgerQuery.Record.Identity
import LedgerQuery.Toml.Settings
import LedgerQuery.Vault.Error

namespace LedgerQuery

/-- How many changes a tracker may fall behind, the largest page that a query may ask for, and
    the parties that the local node hosts. -/
structure VaultConfig where
  channelCapacity : UInt64 := 1024
  maxPageSize : UInt32 := 10000
  localParties : List Party := []
  deriving DecidableEq

namespace VaultConfig

/-- Whether a record with the given participants concerns the local node. A node that names no
    local parties is concerned by every record. -/
def isRelevant (c : VaultConfig) (participants : List Party) : Bool :=
  c.localParties.isEmpty || participants.any (· ∈ c.localParties)

instance : JsonForm VaultConfig where
  toJson c := .ofFields [("channel_capacity", toJson c.channelCapacity),
    ("max_page_size", toJson c.maxPageSize), ("local_parties", toJson c.localParties)]
  ofJson? j := do
    return {
      channelCapacity := ← setting? "channel_capacity" 1024 j
      maxPageSize := ← setting? "max_page_size" 10000 j
      localParties := ← setting? "local_parties" [] j }

/-- The settings in a TOML document, with the words in which its reader refuses one. -/
def ofToml (wording : String → String) (source : String) : Except VaultError VaultConfig :=
  match Toml.settings? VaultConfig source with
  | some c => .ok c
  | none => .error (.config (wording source))

end VaultConfig

end LedgerQuery
