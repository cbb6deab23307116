import AddressPool.Lease
import AddressPool.Store
import AddressPool.Walk

/-!
# Allocation from one set

An owner gets the address that was asked for, or else the first free one of a walk over the set,
which resumes after the address that was reserved last.  It works on any store and holds the store's
lock from beginning to end.
-/

namespace AddressPool

/-- A set of ranges with the number by which the store knows it. -/
structure Pool where
  set : RangeSet
  id : Nat

namespace Pool

variable {σ : Type}

/-- The walk that resumes after the address that was reserved last.  No such address, or any
trouble in finding out, makes it a fresh walk; trouble is reported. -/
def walk (pool : Pool) (store : Store σ) : Action σ (Walk pool.set) := do
  match ← (store.lastReserved pool.id).verdict with
  | .ok a => return Walk.after pool.set (some a)
  | .error (.noLastReserved _) => return Walk.fresh pool.set
  | .error e =>
    Action.report .warn s!"Error retrieving last reserved ip: {e}"
    return Walk.fresh pool.set

/-- Tries to reserve the candidates of a walk one after the other, at most as many as given, until
one of them is won or the walk is over. -/
def reserveFirst (pool : Pool) (store : Store σ) (owner : String) :
    Nat → Walk pool.set → (s : σ) → Log → Outcome σ (Except Error (Option (Position pool.set)))
  | 0, _, s, log => ⟨.ok none, s, log⟩
  | most + 1, w, s, log =>
    match w.next with
    | (none, _) => ⟨.ok none, s, log⟩
    | (some p, w) =>
      let log := log.push ⟨.debug, s!"Trying {p.address} for {owner}"⟩
      let o := (store.reserve owner p.address pool.id).verdict s
      match o.value with
      | .error e => ⟨.error e, o.state, log ++ o.log⟩
      | .ok true => ⟨.ok (some p), o.state, log ++ o.log⟩
      | .ok false => pool.reserveFirst store owner most w o.state (log ++ o.log)

/-- Reserves the first free address of the set.  A walk that ends has visited no position twice, so
the bound on the positions of the set bounds the tries too. -/
def reserveNext (pool : Pool) (store : Store σ) (owner : String) :
    Attempt σ (Position pool.set) := do
  let w ← ExceptT.lift (pool.walk store)
  let found? ← .ofVerdict fun s =>
    pool.reserveFirst store owner pool.set.positionBound w s #[]
  match found? with
  | some p => return p
  | none => throw (.exhausted pool.set.text)

/-- Reserves the address that was asked for. -/
def reserveRequested (pool : Pool) (store : Store σ) (owner : String) (a : Address) :
    Attempt σ (Position pool.set) := do
  let i ← Attempt.ofExcept (pool.set.lookup a)
  let p : Position pool.set := ⟨i, a⟩
  if p.isGateway then throw (.requestedGateway a)
  if ← store.reserve owner a pool.id then return p
  throw (.requestedTaken a pool.set.text)

def lease (pool : Pool) (p : Position pool.set) : Except Error Lease :=
  match Network.of? p.address p.range.subnet.length with
  | some network => .ok ⟨p.address.family.version, network, p.range.gateway⟩
  | none => .error (.prefixTooLong p.address)

/-- Gets an address for an owner: the one that is asked for, if one is. -/
def acquire (pool : Pool) (store : Store σ) (owner : String) (requested : Option Address) :
    Attempt σ Lease :=
  store.locked do
    let p ← match requested with
      | some a => pool.reserveRequested store owner a.canonical
      | none => pool.reserveNext store owner
    Attempt.report .info s!"Allocated {p.address} to {owner} from range set {pool.id}"
    Attempt.ofExcept (pool.lease p)

def release (pool : Pool) (store : Store σ) (owner : String) : Attempt σ Unit :=
  store.locked do
    store.releaseOwner owner
    Attempt.report .info s!"Released addresses held by {owner} in range set {pool.id}"

end Pool

end AddressPool
