import AddressPool.Proofs.Store.Alike
import Mathlib.Tactic

/-!
# Stores that keep a record

A recorded store does what it is asked and writes down what that was and what came of it.  Nobody can
tell it apart from the store itself (`Store.alike_recorded`), and what is written down stays
(`Store.recorded_keeps`), so that the record of a call tells what the call has asked of the store,
whatever the store may be.
-/

namespace AddressPool

open Attempt

variable {σ α : Type}

/-- What a store was asked, and what came of it. -/
inductive Exchange where
  | lock (verdict : Except Error Unit)
  | unlock (verdict : Except Error Unit)
  | close (verdict : Except Error Unit)
  | reserve (owner : String) (a : Address) (setId : Nat) (verdict : Except Error Bool)
  | lastReserved (setId : Nat) (verdict : Except Error Address)
  | release (a : Address) (verdict : Except Error Unit)
  | releaseOwner (owner : String) (verdict : Except Error Unit)

/-- A state with the record of what was asked, in order. -/
structure Recorded (σ : Type) where
  inner : σ
  exchanges : List Exchange := []

def Recorded.record (exchange : Except Error α → Exchange) (m : Attempt σ α) :
    Attempt (Recorded σ) α :=
  .ofVerdict fun r =>
    let o := m.verdict r.inner
    ⟨o.value, ⟨o.state, r.exchanges ++ [exchange o.value]⟩, o.log⟩

theorem Recorded.result_record (exchange : Except Error α → Exchange) (m : Attempt σ α)
    (r : Recorded σ) :
    result (record exchange m) r =
      ((result m r.inner).1,
        ⟨(result m r.inner).2, r.exchanges ++ [exchange (result m r.inner).1]⟩) := rfl

namespace Store

/-- A store that writes down what it is asked. -/
def recorded (store : Store σ) : Store (Recorded σ) where
  lock := Recorded.record .lock store.lock
  unlock := Recorded.record .unlock store.unlock
  close := Recorded.record .close store.close
  reserve owner a setId := Recorded.record (.reserve owner a setId) (store.reserve owner a setId)
  lastReserved setId := Recorded.record (.lastReserved setId) (store.lastReserved setId)
  release a := Recorded.record (.release a) (store.release a)
  releaseOwner owner := Recorded.record (.releaseOwner owner) (store.releaseOwner owner)

/-- **The record changes nothing.** -/
theorem alike_recorded (store : Store σ) :
    store.recorded.Alike (fun r s => r.inner = s) .univ .univ store := by
  have hrecord {α : Type} (exchange : Except Error α → Exchange) (m : Attempt σ α) :
      Attempt.Alike (fun r s => r.inner = s) (Recorded.record exchange m) m := by
    rintro r _ rfl
    exact ⟨rfl, rfl⟩
  exact {
    lock := hrecord _ _
    unlock := hrecord _ _
    reserve := fun _ _ _ _ _ => hrecord _ _
    lastReserved := by
      rintro setId - r _ rfl
      exact ⟨rfl, rfl⟩
    releaseOwner := fun _ _ => hrecord _ _ }

/-- **What is in the record stays there.** -/
theorem recorded_keeps (store : Store σ) (x : Exchange) :
    store.recorded.Keeps (x ∈ ·.exchanges) .univ .univ where
  lock _ hx := List.mem_append_left _ hx
  unlock _ hx := List.mem_append_left _ hx
  reserve _ _ _ _ _ _ hx := List.mem_append_left _ hx
  lastReserved _ _ _ hx := List.mem_append_left _ hx
  releaseOwner _ _ _ hx := List.mem_append_left _ hx

theorem mem_exchanges_of_reserve {store : Store σ} {owner : String} {a : Address} {setId : Nat}
    {verdict : Except Error Bool} {r r' : Recorded σ}
    (h : result (store.recorded.reserve owner a setId) r = (verdict, r')) :
    .reserve owner a setId verdict ∈ r'.exchanges := by
  rw [recorded, Recorded.result_record] at h
  cases h
  exact List.mem_append_right _ (List.mem_singleton_self _)

end Store

/-- **A call on a recorded store comes to what it comes to on the store.** -/
theorem result_allocateAll_recorded (store : Store σ) (sets : List RangeSet) (owner : String)
    (requested : List Address) (r : Recorded σ) :
    result (allocateAll store sets owner requested) r.inner =
      ((result (allocateAll store.recorded sets owner requested) r).1,
        (result (allocateAll store.recorded sets owner requested) r).2.inner) := by
  have halike : Attempt.Alike (fun r s => r.inner = s)
      (allocateAll store.recorded sets owner requested) (allocateAll store sets owner requested) :=
    Allocation.alike_acquireEach store.alike_recorded trivial _ _ _ _ fun _ _ => Set.mem_univ _
  obtain ⟨hanswer, hstate⟩ := halike r r.inner rfl
  exact Prod.ext hanswer.symm hstate.symm

end AddressPool
