import AddressPool.Proofs.Action
import AddressPool.Proofs.Address.Text
import AddressPool.Store.Memory
import Mathlib.Tactic

/-!
# What the operations of a store in memory come to

A reservation is won where there is none, and then the memory is what `Memory.grant` says: one more
owner and one other last address.  Addresses are known by their texts, and these tell them apart, so
a reservation changes the owner of no other address (`Memory.owner?_grant`).

Releasing an owner leaves what is not the owner's (`Memory.owners_releaseOwner`) and forgets the
reservations the owner was granted, whatever they are (`Memory.releaseOwner_grant`).
-/

namespace AddressPool

namespace Memory

variable (m : Memory) (owner : String) (a b : Address) (setId j : Nat)

/-- The memory with an address reserved for an owner, as the last one of a set. -/
def grant : Memory :=
  { m with owners := m.owners.insert a.text (Text.trim owner), last := m.last.insert setId a }

def unlocked : Memory :=
  { m with held := false }

/-! ### Reservations -/

theorem owners_grant (k : String) :
    (m.grant owner a setId).owners[k]? =
      if a.text = k then some (Text.trim owner) else m.owners[k]? := by
  rw [grant, Std.ExtTreeMap.getElem?_insert]
  simp only [Std.LawfulEqOrd.compare_eq_iff_eq]

theorem owner?_grant :
    (m.grant owner a setId).owner? b = if a = b then some (Text.trim owner) else m.owner? b := by
  rw [owner?, owners_grant, owner?]
  by_cases hab : a = b
  · rw [if_pos hab, if_pos (congrArg Address.text hab)]
  · rw [if_neg hab, if_neg fun htext => hab (Address.text_injective htext)]

theorem last_grant :
    (m.grant owner a setId).last[j]? = if setId = j then some a else m.last[j]? := by
  rw [grant, Std.ExtTreeMap.getElem?_insert]
  simp only [Std.LawfulEqOrd.compare_eq_iff_eq]

variable {m owner a} in
theorem reserve_of_free (h : m.owner? a = none) :
    m.reserve owner a setId = (true, m.grant owner a setId) := by
  rw [reserve, if_neg]
  · rfl
  · rw [Std.ExtTreeMap.contains_eq_isSome_getElem?]
    change ¬ (m.owner? a).isSome = true
    rw [h]
    decide

variable {m owner a} in
theorem reserve_of_taken (h : m.owner? a ≠ none) : m.reserve owner a setId = (false, m) := by
  rw [reserve, if_pos]
  rw [Std.ExtTreeMap.contains_eq_isSome_getElem?]
  exact Option.isSome_iff_ne_none.mpr h

variable {m a b} in
theorem owner?_reserve_of_ne (h : a ≠ b) :
    (m.reserve owner a setId).2.owner? b = m.owner? b := by
  by_cases hfree : m.owner? a = none
  · rw [reserve_of_free setId hfree, owner?_grant, if_neg h]
  · rw [reserve_of_taken setId hfree]

/-! ### Releases -/

theorem owner?_release : (m.release a).owner? b = if a = b then none else m.owner? b := by
  rw [owner?, release, Std.ExtTreeMap.getElem?_erase]
  simp only [Std.LawfulEqOrd.compare_eq_iff_eq]
  by_cases hab : a = b
  · rw [if_pos hab, if_pos (congrArg Address.text hab)]
  · rw [if_neg hab, if_neg fun htext => hab (Address.text_injective htext)]
    rfl

theorem owners_releaseOwner (k : String) :
    (m.releaseOwner owner).owners[k]? = m.owners[k]?.filter (· != Text.trim owner) :=
  Std.ExtTreeMap.getElem?_filter'

theorem releaseOwner_releaseOwner :
    (m.releaseOwner owner).releaseOwner owner = m.releaseOwner owner := by
  have howners : ((m.releaseOwner owner).releaseOwner owner).owners =
      (m.releaseOwner owner).owners := by
    apply Std.ExtTreeMap.ext_getElem?
    intro k
    rw [owners_releaseOwner, owners_releaseOwner, Option.filter_filter]
    simp
  exact congrArg (fun owners => { m with owners := owners }) howners

variable {m owner a} in
theorem releaseOwner_grant (h : m.owner? a = none) :
    ((m.grant owner a setId).releaseOwner owner).owners = (m.releaseOwner owner).owners := by
  apply Std.ExtTreeMap.ext_getElem?
  intro k
  rw [owners_releaseOwner, owners_releaseOwner, owners_grant]
  split_ifs with hk
  · have hnone : m.owners[k]? = none := hk ▸ h
    simp [hnone]
  · rfl

/-! ### The operations as a store -/

open Attempt

@[simp]
theorem result_lock : result store.lock m = (.ok (), { m with held := true }) := rfl

@[simp]
theorem result_reserve :
    result (store.reserve owner a setId) m =
      (.ok (m.reserve owner a setId).1, (m.reserve owner a setId).2) := rfl

@[simp]
theorem result_lastReserved :
    result (store.lastReserved setId) m = (m.lastReserved setId, m) := rfl

@[simp]
theorem result_releaseOwner :
    result (store.releaseOwner owner) m = (.ok (), m.releaseOwner owner) := rfl

@[simp]
theorem toOption_lastReserved : (m.lastReserved setId).toOption = m.last[setId]? := by
  rw [lastReserved]
  cases m.last[setId]? <;> rfl

end Memory

end AddressPool
