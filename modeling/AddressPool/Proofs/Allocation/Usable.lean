import AddressPool.Proofs.Store.Recorded
import Mathlib.Tactic

/-!
# Leases that can be used

Whatever a store answers, a call that succeeds hands out one address of each set, which lies between
the bounds of a member of the set, is neither its gateway nor a broadcast address, and goes with the
length and the gateway of that member's subnet.  The store was asked for each of them and has let the
owner have it (`allocateAll_usable`).
-/

namespace AddressPool

open Attempt

/-- A lease hands out an address of a range as it is to be used: between the bounds, in the subnet,
neither its gateway nor its broadcast address, and told with the length and the gateway of the range
and the version of its family. -/
structure Lease.UsableIn (l : Lease) (r : Range) : Prop where
  spanned : r.Spans l.address.address
  inside : r.subnet.contains l.address.address
  not_gateway : l.address.address ≠ r.gateway
  not_broadcast : r.subnet.broadcast? ≠ some l.address.address
  length : l.address.length = r.subnet.length
  gateway : l.gateway = r.gateway
  gateway_inside : r.subnet.contains l.gateway
  version : l.version = if l.address.address.family = .v4 then "4" else "6"

theorem Position.LeasedAs.usableIn {s : RangeSet} (hs : s.Sound) {p : Position s} {l : Lease}
    (h : p.LeasedAs l) (hspanned : p.Spanned) (hgateway : p.address ≠ p.range.gateway) :
    l.UsableIn p.range := by
  have hr := hs.member p.member
  obtain ⟨hversion, haddress, hlength, hgate⟩ := h
  refine ⟨?_, ?_, ?_, ?_, hlength, hgate, hgate ▸ hr.gateway_mem, ?_⟩
  · rwa [haddress]
  · rw [haddress]
    exact hr.subnet_contains hspanned
  · rwa [haddress]
  · rw [haddress]
    exact fun hbroadcast => Nat.lt_irrefl _ (hr.lt_broadcast hspanned hbroadcast)
  · rw [hversion, haddress]
    cases p.address.family <;> rfl

/-! ### One set -/

namespace Pool

variable {σ : Type} {store : Store σ} {pool : Pool} {owner : String} {l : Lease}
  {r r' : Recorded σ}

/-- A set has handed out a lease of one of its candidates, which the store was asked for and has let
the owner have. -/
def Gave (pool : Pool) (owner : String) (exchanges : List Exchange) (l : Lease) : Prop :=
  ∃ p : Position pool.set, p.Spanned ∧ p.address ≠ p.range.gateway ∧ p.LeasedAs l ∧
    .reserve owner p.address pool.id (.ok true) ∈ exchanges

theorem gave_of_acquire (hs : pool.set.Sound) {requested : Option Address}
    (h : result (pool.acquire store.recorded owner requested) r = (.ok l, r')) :
    pool.Gave owner r'.exchanges l := by
  rw [result_acquire_eq] at h
  rcases hlock : result store.recorded.lock r with ⟨e | _, r₁⟩
  · rw [hlock] at h
    cases h
  · rw [hlock] at h
    dsimp only at h
    rcases hfor : result (pool.reserveFor store.recorded owner requested) r₁ with ⟨e | p, r₂⟩
    · rw [hfor] at h
      cases h
    · rw [hfor] at h
      obtain ⟨hspanned, hgateway, s₁, hreserve⟩ := won_of_reserveFor hs hfor
      obtain ⟨l', hl, hleased⟩ := lease_of_spanned hs hspanned
      dsimp only at h
      rw [hl] at h
      cases h
      have hrecord := Store.mem_exchanges_of_reserve hreserve
      exact ⟨p, hspanned, hgateway, hleased,
        (store.recorded_keeps _).unlock r₂ hrecord⟩

end Pool

/-! ### All sets -/

namespace Allocation

variable {σ : Type} {store : Store σ} {owner : String} {phase : Phase} {given pools : List Pool}
  {waiting : List Address} {ls : List Lease} {r r' : Recorded σ}

theorem gave_of_acquireEach (hsound : ∀ pool ∈ pools, pool.set.Sound)
    (h : Action.result (acquireEach store.recorded owner phase given waiting pools) r =
      (.ok ls, r')) :
    List.Forall₂ (fun pool l => pool.Gave owner r'.exchanges l) pools ls := by
  induction pools generalizing phase given waiting r ls with
  | nil =>
    by_cases hwaiting : waiting = []
    · rw [hwaiting, result_acquireEach_nil] at h
      cases h
      exact .nil
    · rw [result_acquireEach_of_waiting _ _ _ _ _ _ hwaiting] at h
      cases h
  | cons pool pools ih =>
    obtain ⟨hs, hsound⟩ := List.forall_mem_cons.mp hsound
    rw [result_acquireEach_cons] at h
    rcases hacquire : result (pool.acquire store.recorded owner
      (waiting.find? pool.set.contains)) r with ⟨_ | l, r₁⟩
    · rw [hacquire] at h
      cases h
    · rw [hacquire] at h
      dsimp only at h
      rcases hrest : Action.result (acquireEach store.recorded owner (.allocating pool.id)
        (given ++ [pool]) (waiting.eraseP pool.set.contains) pools) r₁ with ⟨_ | ks, r₂⟩
      · rw [hrest] at h
        cases h
      · rw [hrest] at h
        cases h
        obtain ⟨p, hspanned, hgateway, hleased, hrecord⟩ := Pool.gave_of_acquire hs hacquire
        have hkept := keeps_acquireEach (store.recorded_keeps _) (Set.mem_univ owner)
          (.allocating pool.id) (given ++ [pool]) pools (waiting.eraseP pool.set.contains)
          (fun _ _ => trivial) hrecord
        rw [hrest] at hkept
        exact .cons ⟨p, hspanned, hgateway, hleased, hkept⟩ (ih hsound hrest)

end Allocation

variable {σ : Type} {store : Store σ} {sets : List RangeSet} {owner : String}
  {requested : List Address} {ls : List Lease} {s s' : σ}

/-- **Every address that is handed out can be used, whatever the store answers.** -/
theorem allocateAll_usable (hsets : ∀ set ∈ sets, set.Canonicalized)
    (h : result (allocateAll store sets owner requested) s = (.ok ls, s')) :
    ∃ exchanges, result (allocateAll store.recorded sets owner requested) ⟨s, []⟩ =
        (.ok ls, ⟨s', exchanges⟩) ∧
      ls.length = sets.length ∧
      ∀ i set l, sets[i]? = some set → ls[i]? = some l →
        (∃ m ∈ set.members, l.UsableIn m) ∧
          .reserve owner l.address.address i (.ok true) ∈ exchanges := by
  have hrecorded := result_allocateAll_recorded store sets owner requested ⟨s, []⟩
  rcases hrun : result (allocateAll store.recorded sets owner requested) ⟨s, []⟩ with
    ⟨verdict, ⟨s₁, exchanges⟩⟩
  rw [h, hrun] at hrecorded
  cases hrecorded
  have hsound : ∀ pool ∈ pools sets, pool.set.Sound :=
    fun _ hpool => (hsets _ (set_mem_of_mem_pools hpool)).sound
  have hgave := Allocation.gave_of_acquireEach hsound hrun
  refine ⟨exchanges, rfl, hgave.length_eq.symm.trans (length_pools sets), ?_⟩
  intro i set l hset hl
  obtain ⟨hi, rfl⟩ := List.getElem?_eq_some_iff.mp hl
  have hi' : i < (pools sets).length := hgave.length_eq ▸ hi
  have hpool : (pools sets)[i] = ⟨set, i⟩ := by
    have hget := getElem?_pools sets i
    rw [hset, List.getElem?_eq_getElem hi'] at hget
    exact Option.some.inj hget
  have hgave_i : Pool.Gave ⟨set, i⟩ owner exchanges ls[i] := hpool ▸ hgave.get hi' hi
  obtain ⟨p, hspanned, hgateway, hleased, hrecord⟩ := hgave_i
  have hset_sound := (hsets set (List.mem_of_getElem? hset)).sound
  exact ⟨⟨p.range, set.member_mem p.member, hleased.usableIn hset_sound hspanned hgateway⟩,
    hleased.address ▸ hrecord⟩

/-- A store that lets everybody have everything, and says that the address reserved last was one
that is in no set. -/
def Store.careless : Store Unit where
  lock := pure ()
  unlock := throw (.storage "failed to unlock" "no lock")
  close := pure ()
  reserve _ _ _ := pure true
  lastReserved _ := pure (.ofNat .v6 0)
  release _ := pure ()
  releaseOwner _ := pure ()

theorem allocateAll_usable_careless : ∃ ls exchanges,
    (∀ set ∈ [tightSet 0, tightSet 1], set.Canonicalized) ∧
      result (allocateAll Store.careless [tightSet 0, tightSet 1] "dummy" []) () = (.ok ls, ()) ∧
      result (allocateAll Store.careless.recorded [tightSet 0, tightSet 1] "dummy" []) ⟨(), []⟩ =
        (.ok ls, ⟨(), exchanges⟩) ∧
      ls.length = 2 ∧ ∀ i set l, [tightSet 0, tightSet 1][i]? = some set → ls[i]? = some l →
        (∃ m ∈ set.members, l.UsableIn m) ∧
          .reserve "dummy" l.address.address i (.ok true) ∈ exchanges := by
  have hrun : (result (allocateAll Store.careless [tightSet 0, tightSet 1] "dummy" []) ()).1.isOk =
      true := by decide +kernel
  rcases hresult : result (allocateAll Store.careless [tightSet 0, tightSet 1] "dummy" []) () with
    ⟨_ | ls, _⟩
  · rw [hresult] at hrun
    cases hrun
  · obtain ⟨exchanges, hrecorded⟩ := allocateAll_usable canonicalized_tightSets hresult
    exact ⟨ls, exchanges, canonicalized_tightSets, rfl, hrecorded⟩

end AddressPool
