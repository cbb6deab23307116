import AddressPool.Allocation.All
import AddressPool.Resolver
import AddressPool.Setup
import AddressPool.Store.Disk

/-!
# Commands

One call of the tool: an owner gets addresses from all sets of a network, or gives up all that it
has there.  The state between calls is in files.
-/

namespace AddressPool

open AddressPool.Files (Faults Path Tree)

namespace Command

def setup {σ : Type} (config : Json.Bytes) (arguments : String) : Attempt σ Setup := do
  let s ← Attempt.ofExcept (Setup.load config arguments)
  Attempt.report .debug
    (s!"Loaded {s.sets.length} range set(s) for network " ++ Text.Quoted.text s.name)
  return s

def resolverIn (path : Path) (faults : Faults := {}) : Attempt Tree Resolver :=
  .ofVerdict fun t =>
    match faults.guarded .read path t (t.readText path) with
    | .error fault => ⟨.error (Lockfile.failed "read" path fault), t, #[]⟩
    | .ok text => ⟨.ok (Resolver.ofText text), t, Resolver.reports text⟩

def resolver (s : Setup) (faults : Faults := {}) : Attempt Tree Resolver :=
  match s.resolverFile? with
  | some path => resolverIn path faults
  | none => pure {}

/-- Gets an owner an address from each set of a network. -/
def add (config : Json.Bytes) (owner arguments : String) (faults : Faults := {}) :
    Attempt Tree Grant := do
  let s ← setup config arguments
  let resolver ← resolver s faults
  let disk ← Disk.openAt s.name s.dataDir? faults
  let verdict ← ExceptT.lift (allocateAll (disk.store faults) s.sets owner s.requested).verdict
  (disk.store faults).close
  let leases ← Attempt.ofExcept verdict
  Attempt.report .info
    s!"Allocated {leases.length} address(es) for {owner} on network {s.name}"
  return { version := s.version, leases, routes := s.routes, resolver }

/-- Frees everything that an owner has on a network. -/
def del (config : Json.Bytes) (owner arguments : String) (faults : Faults := {}) :
    Attempt Tree Unit := do
  let s ← setup config arguments
  let disk ← Disk.openAt s.name s.dataDir? faults
  let verdict ← ExceptT.lift (releaseAll (disk.store faults) s.sets owner).verdict
  (disk.store faults).close
  Attempt.ofExcept verdict
  Attempt.report .info s!"Released {owner} on network {s.name}"

end Command

end AddressPool
