import AddressPool.Store
import AddressPool.Text.Blank
import Std.Data.ExtTreeMap

/-!
# Stores in memory

The state of a pool as two finite maps: from the text of an address to its owner, and from the
number of a set to the address that was reserved last.  Owners are kept without the blanks around
them.
-/

namespace AddressPool

/-- Reservations, last reserved addresses, and whether the lock is held. -/
structure Memory where
  owners : Std.ExtTreeMap String String := ∅
  last : Std.ExtTreeMap Nat Address := ∅
  held : Bool := false

namespace Memory

def owner? (m : Memory) (a : Address) : Option String :=
  m.owners[a.text]?

def count (m : Memory) : Nat :=
  m.owners.size

/-- Reserves an address for an owner if it is free; answers whether it was. -/
def reserve (m : Memory) (owner : String) (a : Address) (setId : Nat) : Bool × Memory :=
  if m.owners.contains a.text then (false, m)
  else
    (true, { m with
      owners := m.owners.insert a.text (Text.trim owner)
      last := m.last.insert setId a })

def release (m : Memory) (a : Address) : Memory :=
  { m with owners := m.owners.erase a.text }

def releaseOwner (m : Memory) (owner : String) : Memory :=
  { m with owners := m.owners.filter fun _ o => o != Text.trim owner }

/-- The address of a set that was reserved last, or that there is none. -/
def lastReserved (m : Memory) (setId : Nat) : Except Error Address :=
  match m.last[setId]? with
  | some a => .ok a
  | none => .error (.noLastReserved setId)

/-- Memory as a store; none of its operations fails but the question for an address that was never
reserved. -/
def store : Store Memory where
  lock := .ofVerdict fun m => ⟨.ok (), { m with held := true }, #[]⟩
  unlock := .ofVerdict fun m => ⟨.ok (), { m with held := false }, #[]⟩
  close := .ofVerdict fun m => ⟨.ok (), m, #[]⟩
  reserve owner a setId := .ofVerdict fun m =>
    let (won, m) := m.reserve owner a setId
    ⟨.ok won, m, #[]⟩
  lastReserved setId := .ofVerdict fun m => ⟨m.lastReserved setId, m, #[]⟩
  release a := .ofVerdict fun m => ⟨.ok (), m.release a, #[]⟩
  releaseOwner owner := .ofVerdict fun m => ⟨.ok (), m.releaseOwner owner, #[]⟩

end Memory

end AddressPool
