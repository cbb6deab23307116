import AddressPool.Store

/-!
# Stores that fail

Any store with failures put in front of it: the calls of each operation are counted, and a call
whose number is chosen fails before it reaches the store.
-/

namespace AddressPool

/-- The operations of a store, by name. -/
inductive Operation where
  | lock
  | unlock
  | close
  | reserve
  | lastReserved
  | release
  | releaseOwner
  deriving DecidableEq, Repr

/-- The name of an operation in messages. -/
def Operation.text : Operation → String
  | lock => "lock"
  | unlock => "unlock"
  | close => "close"
  | reserve => "reserve"
  | lastReserved => "last"
  | release => "release"
  | releaseOwner => "release_by_id"

/-- How often each operation was called. -/
structure Tally where
  lock : Nat := 0
  unlock : Nat := 0
  close : Nat := 0
  reserve : Nat := 0
  lastReserved : Nat := 0
  release : Nat := 0
  releaseOwner : Nat := 0
  deriving DecidableEq, Repr

namespace Tally

/-- How often an operation was called. -/
def get (t : Tally) : Operation → Nat
  | .lock => t.lock
  | .unlock => t.unlock
  | .close => t.close
  | .reserve => t.reserve
  | .lastReserved => t.lastReserved
  | .release => t.release
  | .releaseOwner => t.releaseOwner

/-- The tally after another call of an operation. -/
def count (t : Tally) : Operation → Tally
  | .lock => { t with lock := t.lock + 1 }
  | .unlock => { t with unlock := t.unlock + 1 }
  | .close => { t with close := t.close + 1 }
  | .reserve => { t with reserve := t.reserve + 1 }
  | .lastReserved => { t with lastReserved := t.lastReserved + 1 }
  | .release => { t with release := t.release + 1 }
  | .releaseOwner => { t with releaseOwner := t.releaseOwner + 1 }

theorem get_count (t : Tally) (op op' : Operation) :
    (t.count op).get op' = if op' = op then t.get op + 1 else t.get op' := by
  cases op <;> cases op' <;> simp [count, get]

end Tally

/-- A state with the calls that were made on it. -/
structure Counted (σ : Type) where
  inner : σ
  calls : Tally := {}

namespace Counted

variable {σ α : Type}

/-- The error of a call that was chosen to fail. -/
def fault (op : Operation) (number : Nat) : Error :=
  .storage s!"injected {op.text} {number}" "fault"

/-- Counts a call, and makes it unless its number is chosen to fail. -/
def call (fails : Operation → Nat → Bool) (op : Operation) (m : Attempt σ α) :
    Attempt (Counted σ) α :=
  .ofVerdict fun c =>
    let c := { c with calls := c.calls.count op }
    let number := c.calls.get op
    if fails op number then ⟨.error (fault op number), c, #[]⟩
    else
      let o := m.verdict c.inner
      ⟨o.value, { c with inner := o.state }, o.log⟩

end Counted

/-- A store whose chosen calls fail without an effect. -/
def Store.faulty {σ : Type} (fails : Operation → Nat → Bool) (store : Store σ) :
    Store (Counted σ) where
  lock := Counted.call fails .lock store.lock
  unlock := Counted.call fails .unlock store.unlock
  close := Counted.call fails .close store.close
  reserve owner a setId := Counted.call fails .reserve (store.reserve owner a setId)
  lastReserved setId := Counted.call fails .lastReserved (store.lastReserved setId)
  release a := Counted.call fails .release (store.release a)
  releaseOwner owner := Counted.call fails .releaseOwner (store.releaseOwner owner)

end AddressPool
