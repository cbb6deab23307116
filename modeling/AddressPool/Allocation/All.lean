import AddressPool.Allocation

/-!
# Allocation from all sets of a network

One call gives an owner an address from each set.  A requested address goes to the first set that
contains it, and a set for which nothing is requested gives an address of its choice.  If a set has
none to give, or requests are left over, then the sets that have given theirs are released in order,
and the call fails; what goes wrong in that is only reported.
-/

namespace AddressPool

/-- How far an allocation has come. -/
inductive Phase where
  | pending
  | allocating (setId : Nat)
  | rollingBack
  | failed
  | succeeded

/-- The words for a phase. -/
def Phase.text : Phase → String
  | pending => "pending"
  | allocating setId => s!"allocating range set {setId}"
  | rollingBack => "rolling back"
  | failed => "failed"
  | succeeded => "all succeeded"

namespace Allocation

variable {σ : Type}

def requests (addresses : List Address) : List Address :=
  (addresses.map Address.canonical).foldl
    (fun found a => if found.contains a then found else found ++ [a]) []

/-- Reports that an allocation goes from one phase to another. -/
def transition (owner : String) (phase next : Phase) : Action σ Unit :=
  Action.report .debug ("Allocation for " ++ owner ++ ": " ++ phase.text ++ " -> " ++ next.text)

/-- Releases the given sets for an owner, one after the other; that one fails is reported. -/
def releaseEach (store : Store σ) (owner : String) : List Pool → Action σ Unit
  | [] => return
  | pool :: pools => do
    match ← (pool.release store owner).verdict with
    | .ok _ => pure ()
    | .error e => Action.report .warn (Error.rollback pool.id owner e).message
    releaseEach store owner pools

/-- Releases the sets that gave an address, and answers with the error that made it necessary. -/
def rollBack (store : Store σ) (owner : String) (phase : Phase) (given : List Pool)
    (cause : Error) : Action σ Error := do
  transition owner phase .rollingBack
  releaseEach store owner given
  transition owner .rollingBack .failed
  return cause

/-- Takes the first request that a set contains out of the list. -/
def takeRequest (s : RangeSet) : List Address → Option Address × List Address
  | [] => (none, [])
  | a :: rest =>
    if s.contains a then (some a, rest)
    else
      let (found?, rest) := takeRequest s rest
      (found?, a :: rest)

/-- Asks the sets that are left for an address each; `given` are the sets that have given one, and
`waiting` the requests that no set has taken. -/
def acquireEach (store : Store σ) (owner : String) (phase : Phase) (given : List Pool)
    (waiting : List Address) : List Pool → Action σ (Except Error (List Lease))
  | [] =>
    if waiting.isEmpty then do
      transition owner phase .succeeded
      return .ok []
    else do
      return .error (← rollBack store owner phase given (.unmatched waiting))
  | pool :: pools => do
    transition owner phase (.allocating pool.id)
    let (requested, waiting) := takeRequest pool.set waiting
    match ← (pool.acquire store owner requested).verdict with
    | .error e =>
      return .error (← rollBack store owner (.allocating pool.id) given (.allocation pool.id e))
    | .ok lease =>
      let rest ← acquireEach store owner (.allocating pool.id) (given ++ [pool]) waiting pools
      return rest.map (lease :: ·)

end Allocation

open Allocation

variable {σ : Type}

def pools (sets : List RangeSet) : List Pool :=
  sets.mapIdx fun i s => ⟨s, i⟩

/-- Gets an owner an address from each set, or none from any. -/
def allocateAll (store : Store σ) (sets : List RangeSet) (owner : String)
    (requested : List Address) : Attempt σ (List Lease) :=
  .ofVerdict (acquireEach store owner .pending [] (requests requested) (pools sets))

/-- Frees the addresses of an owner set by set, and answers with the texts of what went wrong. -/
def releaseFailures (store : Store σ) (owner : String) : List Pool → Action σ (List String)
  | [] => return []
  | pool :: pools => do
    let verdict ← (pool.release store owner).verdict
    let rest ← releaseFailures store owner pools
    return match verdict with
      | .ok _ => rest
      | .error e => e.message :: rest

/-- Frees every address of an owner in each set; a set that fails does not keep the others from it,
and all failures are told at the end. -/
def releaseAll (store : Store σ) (sets : List RangeSet) (owner : String) : Attempt σ Unit :=
  .ofVerdict do
    match ← releaseFailures store owner (pools sets) with
    | [] => return .ok ()
    | causes => return .error (.release causes)

end AddressPool
