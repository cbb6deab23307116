import AddressPool.Proofs.Walk.Recognised
import Mathlib.Tactic

/-!
# Gateways that are handed out

An address is compared with the gateway of the member that it is taken from, and with no other.  So
the gateway of a member is out of reach exactly if every member that spans it has it as its own
gateway (`Pool.acquire_ne_gateway_iff`); a set may have members in one subnet with gateways of their
own, and then the gateway of one is among the candidates of another (`Pool.not_acquire_ne_gateway`).
-/

namespace AddressPool

open Attempt

theorem RangeSet.Canonicalized.gateway_canonical {s : RangeSet} (hs : s.Canonicalized) {r : Range}
    (hr : r ∈ s.members) : r.gateway.canonical = r.gateway := by
  obtain ⟨given, hgiven⟩ := hs
  obtain ⟨-, hforms, -⟩ := forms_of_canonical hgiven
  obtain ⟨t, hform⟩ := exists_form_of_mem hforms hr
  obtain ⟨rfl, hfits⟩ := Range.fits_of_canonicalize hform
  exact (Range.canonical_completed hfits.hasRoom).1

namespace Pool

variable {pool : Pool} {l : Lease}

/-- A lease is handed out by some call, for some owner, request and memory. -/
def HandsOut (pool : Pool) (l : Lease) : Prop :=
  ∃ owner requested m m', result (pool.acquire Memory.store owner requested) m = (.ok l, m')

theorem HandsOut.taken (hs : pool.set.Sound) (h : pool.HandsOut l) :
    ∃ t ∈ pool.set.members, t.Spans l.address.address ∧ l.gateway = t.gateway ∧
      l.address.address ≠ t.gateway := by
  obtain ⟨owner, requested, m, m', hrun⟩ := h
  rw [result_acquire m owner hs] at hrun
  cases hchoice : pool.choice m requested with
  | error e =>
    rw [hchoice] at hrun
    cases hrun
  | ok p =>
    obtain ⟨hspanned, hgateway, -⟩ := choice_eq_ok m hs hchoice
    obtain ⟨l', hl, hleased⟩ := lease_of_spanned hs hspanned
    rw [hchoice] at hrun
    dsimp only at hrun
    rw [hl] at hrun
    cases hrun
    refine ⟨p.range, pool.set.member_mem p.member, ?_, hleased.gateway, ?_⟩
    · rwa [hleased.address]
    · rwa [hleased.address]

theorem exists_handsOut (hs : pool.set.Sound) {p : Position pool.set} (hp : p.Spanned)
    (hcanonical : p.address.canonical = p.address) (hgateway : p.address ≠ p.range.gateway) :
    ∃ l, pool.HandsOut l ∧ l.address.address = p.address := by
  have hfind := hs.find?_of_spanned hp (Address.canonical_eq_self_iff.mp hcanonical)
  have hchoice : pool.choice {} (some p.address) = .ok p :=
    (choice_some_iff {} hcanonical).mpr ⟨hfind, rfl, hgateway, rfl⟩
  obtain ⟨l, hl, hleased⟩ := lease_of_spanned hs hp
  have hrun := result_acquire {} "" hs (some p.address)
  rw [hchoice] at hrun
  dsimp only at hrun
  rw [hl] at hrun
  exact ⟨l, ⟨"", some p.address, {}, _, hrun⟩, hleased.address⟩

/-- **No address is handed out that is the gateway of the member it is taken from, and the gateway
of a member is never handed out exactly if every member that spans it has it as its own gateway.** -/
theorem acquire_ne_gateway_iff (hs : pool.set.Canonicalized) :
    (∀ l, pool.HandsOut l → ∃ t ∈ pool.set.members, t.Spans l.address.address ∧
      l.gateway = t.gateway ∧ l.address.address ≠ t.gateway) ∧
    ∀ r ∈ pool.set.members, (∀ l, pool.HandsOut l → l.address.address ≠ r.gateway) ↔
      ∀ t ∈ pool.set.members, t.Spans r.gateway → t.gateway = r.gateway := by
  refine ⟨fun l => HandsOut.taken hs.sound, fun r hr => ⟨fun hnever t ht hspans => ?_, ?_⟩⟩
  · by_contra hne
    -- the member that spans it gives it to who asks for it
    obtain ⟨i, rfl⟩ := List.mem_iff_get.mp ht
    obtain ⟨l, hl, haddress⟩ := exists_handsOut (p := ⟨i, r.gateway⟩) hs.sound hspans
      (hs.gateway_canonical hr) (Ne.symm hne)
    exact hnever l hl haddress
  · intro hown l hl haddress
    obtain ⟨t, ht, hspans, -, hne⟩ := HandsOut.taken hs.sound hl
    rw [haddress] at hspans hne
    exact hne (hown t ht hspans).symm

/-- Two addresses of one block; the first is the gateway of the second. -/
def crossedSet : RangeSet :=
  ⟨[{ Range.stretch 0 3 3 with gateway? := some (.ofNat .v4 0x0A000001) },
    { Range.stretch 0 2 2 with gateway? := some (.ofNat .v4 0x0A000003) }]⟩

theorem canonicalized_crossedSet : crossedSet.Canonicalized :=
  ⟨crossedSet, rfl⟩

theorem acquire_ne_gateway_iff_crossedSet : crossedSet.Canonicalized ∧
    (∀ l, HandsOut ⟨crossedSet, 0⟩ l → l.address.address ≠ .ofNat .v4 0x0A000001) ∧
    ¬ ∀ l, HandsOut ⟨crossedSet, 0⟩ l → l.address.address ≠ .ofNat .v4 0x0A000003 := by
  obtain ⟨-, hexact⟩ := acquire_ne_gateway_iff
    (show (Pool.mk crossedSet 0).set.Canonicalized from canonicalized_crossedSet)
  refine ⟨canonicalized_crossedSet, ?_, ?_⟩
  · refine (hexact (crossedSet.member ⟨0, by decide⟩) (crossedSet.member_mem _)).mpr ?_
    rintro t ht ⟨hfrom, -⟩
    obtain rfl | rfl : t = _ ∨ t = _ := by simpa [crossedSet] using ht
    · exact absurd hfrom (by decide)
    · exact absurd hfrom (by decide)
  · intro hnever
    have hown := (hexact (crossedSet.member ⟨1, by decide⟩) (crossedSet.member_mem _)).mp hnever
      (crossedSet.member ⟨0, by decide⟩) (crossedSet.member_mem _) ⟨by decide, by decide⟩
    exact absurd hown (by decide)

theorem not_acquire_ne_gateway :
    ¬ ∀ (pool : Pool) (owner : String) (requested : Option Address) (m m' : Memory) (l : Lease),
      pool.set.Canonicalized →
      result (pool.acquire Memory.store owner requested) m = (.ok l, m') →
      ∀ r ∈ pool.set.members, l.address.address ≠ r.gateway := by
  intro hnever
  have hgiven : (result (acquire ⟨crossedSet, 0⟩ Memory.store "dummy" none) {}).1.toOption.map
      (·.address.address) = some (.ofNat .v4 0x0A000003) := by decide +kernel
  obtain ⟨l, hl, haddress⟩ := exists_ok_of_toOption hgiven
  exact hnever _ _ _ _ _ _ canonicalized_crossedSet (Prod.ext hl rfl)
    (crossedSet.member ⟨1, by decide⟩) (crossedSet.member_mem _) haddress

end Pool

end AddressPool
