/-
  LedgerQuery.Record.Chain

  Chains of record versions. Each version names the version it evolved from; the first of a chain
  names none.
-/
import LedgerQuery.Record.Stored

namespace LedgerQuery

/-- A version's own reference and the one it names as its predecessor. -/
structure Link where
  reference : RecordRef
  back : Option RecordRef
  deriving DecidableEq

namespace Link

/-- Whether a version names a reference as its predecessor. -/
def pointsTo (l : Link) (target : RecordRef) : Bool := l.back = some target

/-- Whether a version names itself. -/
def pointsToItself (l : Link) : Bool := l.pointsTo l.reference

end Link

def StoredRecord.link (r : StoredRecord) : Link := ⟨r.reference, r.back⟩

def Versioned.link {α : Type} (v : Versioned α) : Link := ⟨v.reference, v.back⟩

/-- What breaks a chain. -/
inductive ChainFault where
  | genesisHasPredecessor
  | selfReference (index : Nat)
  | brokenLink (index : Nat)
  | missingPredecessor (index : Nat)
  deriving DecidableEq, Repr

namespace ChainFault

/-- The wording of a fault. -/
def message : ChainFault → String
  | .genesisHasPredecessor => "first version has a back reference (should be None)"
  | .selfReference i => "version at index " ++ Numeral.render i ++ " references itself"
  | .brokenLink i =>
    "broken link at index " ++ Numeral.render i ++ ": back reference does not match predecessor"
  | .missingPredecessor i => "missing back reference at index " ++ Numeral.render i

end ChainFault

namespace Chain

/-- Check the versions after a predecessor; `index` is the place of the first of them. -/
def verifyAfter (predecessor : RecordRef) (index : Nat) : List Link → Except ChainFault Unit
  | [] => .ok ()
  | l :: rest =>
    match l.back with
    | none => .error (.missingPredecessor index)
    | some back =>
      if back = predecessor then verifyAfter l.reference (index + 1) rest
      else .error (.brokenLink index)

/-- Check that versions form a chain, oldest first. A version that names itself is looked for
    before anything else. -/
def verify (links : List Link) : Except ChainFault Unit :=
  match links.findIdx? Link.pointsToItself with
  | some index => .error (.selfReference index)
  | none =>
    match links with
    | [] => .ok ()
    | first :: rest =>
      if first.back.isSome then .error .genesisHasPredecessor
      else verifyAfter first.reference 1 rest

end Chain

end LedgerQuery
