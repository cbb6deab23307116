import AddressPool.Proofs.Action
import AddressPool.Store.Faulty
import Mathlib.Tactic

/-!
# Stores whose calls may fail

A store stands for another if each of its calls comes to what the other's comes to, or fails and
leaves what it stands for alone.  Which calls fail, and with which errors, is left open; failures
put in front of a store are one way (`Store.failsOver_faulty`).
-/

namespace AddressPool

open Attempt

variable {σ τ α : Type}

/-- An attempt comes to what another comes to, or it fails and changes nothing. -/
def Attempt.FailsOver (m : Attempt σ α) (inner : σ → τ) (n : Attempt τ α) : Prop :=
  ∀ s, result n (inner s) = ((result m s).1, inner (result m s).2) ∨
    ∃ e, (result m s).1 = .error e ∧ inner (result m s).2 = inner s

namespace Attempt.FailsOver

variable {inner : σ → τ} {m : Attempt σ α} {n : Attempt τ α} {s s' : σ} {a : α} {e : Error}

theorem of_ok (h : m.FailsOver inner n) (hm : result m s = (.ok a, s')) :
    result n (inner s) = (.ok a, inner s') := by
  rcases h s with hn | ⟨e, he, -⟩
  · rw [hn, hm]
  · rw [hm] at he
    cases he

theorem of_error (h : m.FailsOver inner n) (hn : (result n (inner s)).1 = .ok a)
    (hm : result m s = (.error e, s')) : inner s' = inner s := by
  rcases h s with hn' | ⟨_, -, hs⟩
  · rw [hn', hm] at hn
    cases hn
  · rwa [hm] at hs

end Attempt.FailsOver

/-- Every call on a store comes to what it comes to on another, or it fails and changes nothing. -/
structure Store.FailsOver (store : Store σ) (inner : σ → τ) (base : Store τ) : Prop where
  lock : store.lock.FailsOver inner base.lock
  unlock : store.unlock.FailsOver inner base.unlock
  close : store.close.FailsOver inner base.close
  reserve : ∀ owner a setId,
    (store.reserve owner a setId).FailsOver inner (base.reserve owner a setId)
  lastReserved : ∀ setId,
    (store.lastReserved setId).FailsOver inner (base.lastReserved setId)
  release : ∀ a, (store.release a).FailsOver inner (base.release a)
  releaseOwner : ∀ owner,
    (store.releaseOwner owner).FailsOver inner (base.releaseOwner owner)

theorem Counted.failsOver_call (fails : Operation → Nat → Bool) (op : Operation)
    (m : Attempt τ α) : (Counted.call fails op m).FailsOver Counted.inner m := by
  intro c
  rw [Counted.call, result_ofVerdict_apply]
  dsimp only
  split_ifs
  · exact Or.inr ⟨_, rfl, rfl⟩
  · exact Or.inl rfl

/-- **Whichever calls are chosen to fail, the others do what they do without that.** -/
theorem Store.failsOver_faulty (fails : Operation → Nat → Bool) (base : Store τ) :
    (Store.faulty fails base).FailsOver Counted.inner base where
  lock := Counted.failsOver_call fails .lock base.lock
  unlock := Counted.failsOver_call fails .unlock base.unlock
  close := Counted.failsOver_call fails .close base.close
  reserve owner a setId := Counted.failsOver_call fails .reserve (base.reserve owner a setId)
  lastReserved setId := Counted.failsOver_call fails .lastReserved (base.lastReserved setId)
  release a := Counted.failsOver_call fails .release (base.release a)
  releaseOwner owner := Counted.failsOver_call fails .releaseOwner (base.releaseOwner owner)

end AddressPool
