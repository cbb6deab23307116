import AddressPool.Action

/-!
# Stores

A store keeps, for one pool of addresses, which address is reserved for which owner and which
address of each set was reserved last.  What it is made of is up to the store: everything else
works through these operations, each of which may fail.

Whoever reads and writes a store does so while holding its lock, and `Store.locked` gives the lock
back whatever happens in between.
-/

namespace AddressPool

/-- The operations of a store over states of type `σ`. -/
structure Store (σ : Type) where
  lock : Attempt σ Unit
  unlock : Attempt σ Unit
  close : Attempt σ Unit
  reserve : (owner : String) → Address → (setId : Nat) → Attempt σ Bool
  lastReserved : (setId : Nat) → Attempt σ Address
  release : Address → Attempt σ Unit
  releaseOwner : (owner : String) → Attempt σ Unit

namespace Store

variable {σ α : Type}

/-- Gives the lock back; that this fails is reported and has no other effect. -/
def relinquish (store : Store σ) : Action σ Unit := do
  match ← store.unlock.verdict with
  | .ok _ => return
  | .error e => Action.report .error s!"Failed to release store lock: {e}"

/-- Does something while holding the lock; without the lock nothing is done. -/
def locked (store : Store σ) (body : Attempt σ α) : Attempt σ α := do
  store.lock
  .ofVerdict do
    let verdict ← body.verdict
    store.relinquish
    return verdict

end Store

end AddressPool
