import AddressPool.Proofs.Allocation.All
import Mathlib.Tactic

/-!
# The next free address

Asked for an address of its choice, a set gives the first free candidate behind the address that was
reserved last, and gives nothing only if all its candidates are reserved (`acquire_nextFree`).  This
does not hang on what the question for the last address is answered with: an address of the set,
another one, or an error of any kind.
-/

namespace AddressPool

open Attempt

namespace Memory

variable {marker : Memory → Nat → Except Error Address} {m : Memory} {pool : Pool}

/-- Memory as a store that answers the question for the address reserved last as it is told to. -/
def storeAnswering (marker : Memory → Nat → Except Error Address) : Store Memory :=
  { store with lastReserved := fun setId => .ofVerdict fun m => ⟨marker m setId, m, #[]⟩ }

example : storeAnswering lastReserved = store := rfl

def IsFree (m : Memory) (a : Address) : Bool :=
  (m.owner? a).isNone

theorem isFree_iff {a : Address} : m.IsFree a = true ↔ m.owner? a = none :=
  Option.isNone_iff_eq_none

theorem reserve_answering : (storeAnswering marker).reserve = store.reserve := rfl

theorem result_lastReserved_answering (id : Nat) :
    result ((storeAnswering marker).lastReserved id) m = (marker m id, m) := rfl

theorem reserveAmong_answering (owner : String) (ps : List (Position pool.set)) :
    pool.reserveAmong (storeAnswering marker) owner ps = pool.reserveAmong store owner ps := by
  induction ps with
  | nil => rfl
  | cons p ps ih => rw [Pool.reserveAmong, Pool.reserveAmong, reserve_answering, ih]

end Memory

namespace RangeSet.Sound

variable {s : RangeSet} {m : Memory}

theorem find?_isFree_eq_none_iff (hs : s.Sound) (a? : Option Address) :
    ((s.candidatesAfter a?).find? fun p => m.IsFree p.address) = none ↔
      ∀ r ∈ s.members, ∀ a, r.Spans a → a ≠ r.gateway → m.owner? a ≠ none := by
  rw [List.find?_eq_none]
  constructor
  · intro h r hr a hspans hgateway hfree
    obtain ⟨p, hp, rfl⟩ := hs.exists_mem_candidatesAfter a? hr hspans hgateway
    exact h p hp (Memory.isFree_iff.mpr hfree)
  · intro h p hp hfree
    obtain ⟨hspanned, hgateway⟩ := hs.mem_candidatesAfter.mp hp
    exact h p.range (s.member_mem p.member) p.address hspanned hgateway (Memory.isFree_iff.mp hfree)

end RangeSet.Sound

namespace Pool

variable {pool : Pool}

/-- The first free candidate behind the address that is given as the one reserved last. -/
def firstFreeAfter? (pool : Pool) (m : Memory) (a? : Option Address) :
    Option (Position pool.set) :=
  (pool.set.candidatesAfter a?).find? fun p => m.IsFree p.address

theorem result_reserveAmong_held (owner : String) (m : Memory) (ps : List (Position pool.set)) :
    result (pool.reserveAmong Memory.store owner ps) { m with held := true } =
      match ps.find? fun p => m.IsFree p.address with
      | some p => (.ok (some p), { m.grant owner p.address pool.id with held := true })
      | none => (.ok none, { m with held := true }) :=
  result_reserveAmong _ owner ps

theorem result_acquire_answering (hs : pool.set.Sound)
    (marker : Memory → Nat → Except Error Address) (owner : String) (m : Memory) :
    result (pool.acquire (Memory.storeAnswering marker) owner none) m =
      match pool.firstFreeAfter? m (marker { m with held := true } pool.id).toOption with
      | some p => (pool.lease p, (m.grant owner p.address pool.id).unlocked)
      | none => (.error (.exhausted pool.set.text), m.unlocked) := by
  have hreserve : result (pool.reserveFor (Memory.storeAnswering marker) owner none)
      { m with held := true } =
        match pool.firstFreeAfter? m (marker { m with held := true } pool.id).toOption with
        | some p => (.ok p, { m.grant owner p.address pool.id with held := true })
        | none => (.error (.exhausted pool.set.text), { m with held := true }) := by
    rw [reserveFor, result_reserveNext hs, Memory.result_lastReserved_answering]
    dsimp only
    rw [Memory.reserveAmong_answering, result_reserveAmong_held, firstFreeAfter?]
    cases List.find? _ _ <;> rfl
  have hlock : result (Memory.storeAnswering marker).lock m = (.ok (), { m with held := true }) := rfl
  rw [result_acquire_of_lock hlock, hreserve]
  cases pool.firstFreeAfter? m _ <;> rfl

/-- **A set gives the first free candidate behind the address reserved last, unless all its
candidates are reserved.** -/
theorem acquire_nextFree (hs : pool.set.Canonicalized)
    (marker : Memory → Nat → Except Error Address) (owner : String) (m : Memory)
    {verdict : Except Error Lease} {m' : Memory}
    (hrun : result (pool.acquire (Memory.storeAnswering marker) owner none) m = (verdict, m')) :
    (verdict = .error (.exhausted pool.set.text) ↔
      ∀ r ∈ pool.set.members, ∀ a, r.Spans a → a ≠ r.gateway → m.owner? a ≠ none) ∧
    (verdict ≠ .error (.exhausted pool.set.text) → ∃ p l,
      (pool.set.candidatesAfter (marker { m with held := true } pool.id).toOption).find?
        (fun p => m.IsFree p.address) = some p ∧
      verdict = .ok l ∧ p.LeasedAs l ∧
      m'.owners = m.owners.insert p.address.text (Text.trim owner) ∧
      m'.last = m.last.insert pool.id p.address) := by
  rw [result_acquire_answering hs.sound] at hrun
  rw [← hs.sound.find?_isFree_eq_none_iff (marker { m with held := true } pool.id).toOption]
  cases hfree : pool.firstFreeAfter? m (marker { m with held := true } pool.id).toOption with
  | none =>
    rw [hfree] at hrun
    obtain ⟨rfl, rfl⟩ := Prod.mk.inj hrun
    exact ⟨iff_of_true rfl hfree, fun hne => absurd rfl hne⟩
  | some p =>
    have hspanned : p.Spanned :=
      (hs.sound.mem_candidatesAfter.mp (List.mem_of_find?_eq_some hfree)).1
    obtain ⟨l, hl, hleased⟩ := lease_of_spanned hs.sound hspanned
    rw [hfree] at hrun
    dsimp only at hrun
    rw [hl] at hrun
    obtain ⟨rfl, rfl⟩ := Prod.mk.inj hrun
    refine ⟨iff_of_false (by simp) ?_, fun _ => ⟨p, l, hfree, rfl, hleased, rfl, rfl⟩⟩
    rw [← firstFreeAfter?, hfree]
    simp

/-- A set with one candidate in each of two blocks. -/
def joinedSet : RangeSet :=
  ⟨(tightSet 0).members ++ (tightSet 1).members⟩

def halfFull : Memory where
  owners := (∅ : Std.ExtTreeMap String String).insert "10.0.0.2" "other"

/-- The question for the address reserved last fails. -/
def unreadable : Memory → Nat → Except Error Address :=
  fun _ _ => .error (.badAddress "10.0.0")

theorem acquire_nextFree_joinedSet : joinedSet.Canonicalized ∧ ∃ l m',
    result (acquire ⟨joinedSet, 7⟩ (Memory.storeAnswering unreadable) " dummy" none) halfFull =
      (.ok l, m') ∧
    l.address.address = .ofNat .v4 0x0A000102 ∧
    m'.owners = halfFull.owners.insert "10.0.1.2" "dummy" ∧
    m'.last = halfFull.last.insert 7 (.ofNat .v4 0x0A000102) := by
  have hs : joinedSet.Canonicalized := ⟨joinedSet, rfl⟩
  let p : Position joinedSet := ⟨⟨1, by decide⟩, .ofNat .v4 0x0A000102⟩
  have hfree : (joinedSet.candidatesAfter none).find? (fun p => halfFull.IsFree p.address) =
      some p := by
    decide +kernel
  rcases hrun : result (acquire ⟨joinedSet, 7⟩ (Memory.storeAnswering unreadable) " dummy" none)
    halfFull with ⟨verdict, m'⟩
  obtain ⟨hexhausted, hgiven⟩ := acquire_nextFree hs unreadable " dummy" halfFull hrun
  have hsome : verdict ≠ .error (.exhausted joinedSet.text) := by
    rw [ne_eq, hexhausted, ← hs.sound.find?_isFree_eq_none_iff none, hfree]
    simp
  obtain ⟨q, l, hq, rfl, hleased, howners, hlast⟩ := hgiven hsome
  obtain rfl : p = q := Option.some.inj (hfree.symm.trans hq)
  refine ⟨hs, l, m', rfl, hleased.address, ?_, hlast⟩
  have htext : p.address.text = "10.0.1.2" := by decide +kernel
  have htrim : Text.trim " dummy" = "dummy" := by decide +kernel
  rw [howners, htext, htrim]

end Pool

end AddressPool
