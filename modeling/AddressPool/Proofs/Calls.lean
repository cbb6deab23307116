import AddressPool.Allocation.All
import AddressPool.Proofs.Action
import Mathlib.Tactic

/-!
# Calls on a store

What users of a store ask of it, as data: the three requests that a store answers itself, and those
that go through one set or through all sets of a network.  A history of calls (`history`) is the
list of the calls with what each came to.
-/

namespace AddressPool

open Attempt

/-- A call on a store. -/
inductive Call where
  | reserve (owner : String) (a : Address) (setId : Nat)
  | free (a : Address)
  | freeOwner (owner : String)
  | acquire (pool : Pool) (owner : String) (requested : Option Address)
  | release (pool : Pool) (owner : String)
  | acquireAll (sets : List RangeSet) (owner : String) (requested : List Address)
  | releaseAll (sets : List RangeSet) (owner : String)

/-- What a call answers with. -/
inductive Answer where
  | won (reserved : Bool)
  | lease (l : Lease)
  | leases (ls : List Lease)
  | done
  deriving DecidableEq

namespace Call

/-- Makes a call on a store. -/
def run {σ : Type} (store : Store σ) : Call → Attempt σ Answer
  | reserve owner a setId => return .won (← store.reserve owner a setId)
  | free a => do store.release a; return .done
  | freeOwner owner => do store.releaseOwner owner; return .done
  | acquire pool owner requested => return .lease (← pool.acquire store owner requested)
  | release pool owner => do pool.release store owner; return .done
  | acquireAll sets owner requested => return .leases (← allocateAll store sets owner requested)
  | releaseAll sets owner => do AddressPool.releaseAll store sets owner; return .done

def sets : Call → List RangeSet
  | reserve .. | free _ | freeOwner _ => []
  | acquire pool .. | release pool _ => [pool.set]
  | acquireAll sets .. | releaseAll sets _ => sets

end Call

/-- A call, with its answer or its error. -/
structure Event where
  call : Call
  verdict : Except Error Answer

def history {σ : Type} (store : Store σ) : List Call → Action σ (List Event)
  | [] => return []
  | c :: cs => do
    let verdict ← (c.run store).verdict
    return ⟨c, verdict⟩ :: (← history store cs)

variable {σ : Type} {store : Store σ}

theorem result_history_cons (c : Call) (cs : List Call) (s : σ) :
    Action.result (history store (c :: cs)) s =
      match result (c.run store) s with
      | (verdict, s) =>
        match Action.result (history store cs) s with
        | (es, s) => (⟨c, verdict⟩ :: es, s) := rfl

theorem map_call_history (cs : List Call) (s : σ) :
    (Action.result (history store cs) s).1.map Event.call = cs := by
  induction cs generalizing s with
  | nil => rfl
  | cons c cs ih =>
    rw [result_history_cons]
    exact congrArg (c :: ·) (ih _)

def stateAfter (store : Store σ) (cs : List Call) (s : σ) (k : Nat) : σ :=
  (Action.result (history store (cs.take k)) s).2

theorem stateAfter_cons_succ (c : Call) (cs : List Call) (s : σ) (k : Nat) :
    stateAfter store (c :: cs) s (k + 1) = stateAfter store cs (result (c.run store) s).2 k := rfl

theorem stateAfter_succ (store : Store σ) {cs : List Call} {k : Nat} {c : Call}
    (hk : cs[k]? = some c) (s : σ) :
    stateAfter store cs s (k + 1) = (result (c.run store) (stateAfter store cs s k)).2 := by
  induction cs generalizing k s with
  | nil => cases hk
  | cons d cs ih =>
    cases k with
    | zero =>
      cases hk
      rfl
    | succ k =>
      rw [stateAfter_cons_succ, stateAfter_cons_succ]
      exact ih hk _

theorem getElem?_history (cs : List Call) (s : σ) (k : Nat) :
    (Action.result (history store cs) s).1[k]? =
      cs[k]?.map fun c => ⟨c, (result (c.run store) (stateAfter store cs s k)).1⟩ := by
  induction cs generalizing k s with
  | nil => rfl
  | cons c cs ih =>
    rw [result_history_cons]
    cases k with
    | zero => rfl
    | succ k => exact ih _ k

theorem exists_of_history_append {cs : List Call} {s s' : σ} {past later : List Event}
    (h : Action.result (history store cs) s = (past ++ later, s')) :
    ∃ cs' s₁, cs' ⊆ cs ∧ Action.result (history store cs') s₁ = (later, s') := by
  induction past generalizing cs s with
  | nil => exact ⟨cs, s, fun _ hc => hc, h⟩
  | cons e past ih =>
    cases cs with
    | nil => cases h
    | cons c cs =>
      rw [result_history_cons] at h
      rcases hc : result (c.run store) s with ⟨v, s₂⟩
      rw [hc] at h
      dsimp only at h
      rcases hcs : Action.result (history store cs) s₂ with ⟨es, s₃⟩
      rw [hcs] at h
      obtain ⟨hes, rfl⟩ := Prod.mk.inj h
      obtain ⟨-, rfl⟩ := List.cons.inj hes
      obtain ⟨cs', s₁, hsub, hlater⟩ := ih hcs
      exact ⟨cs', s₁, fun _ hc => List.mem_cons_of_mem _ (hsub hc), hlater⟩

end AddressPool
