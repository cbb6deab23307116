import AddressPool.Proofs.Allocation.NextFree
import Mathlib.Tactic

/-!
# Addresses that a set does not give

A set that is asked for an address that belongs to it, or for one of its choice, does not give one
for one of three reasons (`Pool.Denies`): the address is the gateway of its member, it is taken, or
everything that the set could give is.  On a store in memory nothing else goes wrong but a request
for an address that is not in the set, and whatever goes wrong, it leaves the memory as it was
(`acquire_eq_error_iff`); what was reserved, on the other hand, can always be leased.
-/

namespace AddressPool

open Attempt

namespace Pool

/-- Why a set does not give the address that is requested, or one of its choice, by what is taken:
it is the gateway of its member, or it is taken, or all between the bounds of the members is,
gateways apart. -/
inductive Denies (pool : Pool) (taken : Address → Prop) : Option Address → Error → Prop
  | gateway {a : Address} {i : Fin pool.set.length} : pool.set.find? a = some i →
      a.canonical = (pool.set.member i).gateway →
      Denies pool taken (some a) (.requestedGateway a.canonical)
  | request {a : Address} {i : Fin pool.set.length} : pool.set.find? a = some i →
      a.canonical ≠ (pool.set.member i).gateway → taken a.canonical →
      Denies pool taken (some a) (.requestedTaken a.canonical pool.set.text)
  | exhausted : (∀ r ∈ pool.set.members, ∀ a, r.Spans a → a ≠ r.gateway → taken a) →
      Denies pool taken none (.exhausted pool.set.text)

variable {pool : Pool} {m : Memory} {a : Address} {e : Error}

theorem Denies.mono {taken taken' : Address → Prop} {requested : Option Address}
    (h : pool.Denies taken requested e) (htaken : ∀ a, taken a → taken' a) :
    pool.Denies taken' requested e := by
  cases h with
  | gateway hfind hsame => exact .gateway hfind hsame
  | request hfind hne ha => exact .request hfind hne (htaken _ ha)
  | exhausted hall =>
    exact .exhausted fun r hr a hspans hne => htaken a (hall r hr a hspans hne)

/-! ### In memory -/

theorem choice_none_eq_error_iff (hs : pool.set.Sound) :
    pool.choice m none = .error e ↔ pool.Denies (fun a => m.owner? a ≠ none) none e := by
  have hnone := hs.find?_isFree_eq_none_iff (m := m) m.last[pool.id]?
  rw [choice]
  cases hfree : pool.firstFree? m with
  | none =>
    constructor
    · rintro ⟨⟩
      exact .exhausted (hnone.mp hfree)
    · rintro ⟨⟩
      rfl
  | some p =>
    refine iff_of_false (by simp) fun hdenies => ?_
    cases hdenies with
    | exhausted htaken => cases hfree.symm.trans (hnone.mpr htaken)

theorem choice_of_find?_eq_none (hfind : pool.set.find? a = none) :
    pool.choice m (some a) = .error (.notInSet a.canonical pool.set.text) := by
  rw [← pool.set.find?_canonical] at hfind
  rw [choice, RangeSet.lookup, hfind, Address.canonical_canonical]

theorem choice_eq_error_iff_of_find? {i : Fin pool.set.length} (hfind : pool.set.find? a = some i) :
    pool.choice m (some a) = .error e ↔
      pool.Denies (fun a => m.owner? a ≠ none) (some a) e := by
  have hlookup : pool.set.lookup a.canonical = .ok i := by
    rw [RangeSet.lookup_eq_ok_iff, pool.set.find?_canonical, hfind]
  rw [choice, hlookup]
  dsimp only
  split_ifs with hgateway hfree
  · have hsame : a.canonical = (pool.set.member i).gateway := beq_iff_eq.mp hgateway
    constructor
    · rintro ⟨⟩
      exact .gateway hfind hsame
    · intro hdenies
      cases hdenies with
      | gateway => rfl
      | request hfind' hne =>
        cases hfind.symm.trans hfind'
        exact absurd hsame hne
  · refine iff_of_false (by simp) fun hdenies => ?_
    cases hdenies with
    | gateway hfind' hsame =>
      cases hfind.symm.trans hfind'
      exact hgateway (beq_iff_eq.mpr hsame)
    | request _ _ htaken => exact htaken (Option.isNone_iff_eq_none.mp hfree)
  · have hne : a.canonical ≠ (pool.set.member i).gateway := fun hsame =>
      hgateway (beq_iff_eq.mpr hsame)
    have htaken : m.owner? a.canonical ≠ none := fun hnone => hfree (by simp [hnone])
    constructor
    · rintro ⟨⟩
      exact .request hfind hne htaken
    · intro hdenies
      cases hdenies with
      | gateway hfind' hsame =>
        cases hfind.symm.trans hfind'
        exact absurd hsame hne
      | request => rfl

theorem choice_eq_error_iff (hs : pool.set.Sound) {requested : Option Address} :
    pool.choice m requested = .error e ↔
      pool.Denies (fun a => m.owner? a ≠ none) requested e ∨
        ∃ a, requested = some a ∧ pool.set.contains a = false ∧
          e = .notInSet a.canonical pool.set.text := by
  cases requested with
  | none => simp [choice_none_eq_error_iff hs]
  | some a =>
    cases hfind : pool.set.find? a with
    | none =>
      rw [choice_of_find?_eq_none hfind]
      constructor
      · rintro ⟨⟩
        exact Or.inr ⟨a, rfl, by simp [RangeSet.contains, hfind], rfl⟩
      · rintro (hdenies | ⟨_, ⟨⟩, -, rfl⟩)
        · cases hdenies with
          | gateway hfind' => cases hfind.symm.trans hfind'
          | request hfind' => cases hfind.symm.trans hfind'
        · rfl
    | some i =>
      have hcontains : pool.set.contains a = true := by simp [RangeSet.contains, hfind]
      rw [choice_eq_error_iff_of_find? hfind]
      simp [hcontains]

/-- **A set gives no address if it denies the one that is requested, or everything that it could
give, or if the request is not in it; then the memory is as it was, with the lock given back.  What
is reserved can always be leased.** -/
theorem acquire_eq_error_iff (hs : pool.set.Canonicalized) (owner : String)
    (requested : Option Address) (m : Memory) :
    (∀ e m', result (pool.acquire Memory.store owner requested) m = (.error e, m') ↔
      (pool.Denies (fun a => m.owner? a ≠ none) requested e ∨
        ∃ a, requested = some a ∧ pool.set.contains a = false ∧
          e = .notInSet a.canonical pool.set.text) ∧
      m' = { m with held := false }) ∧
    ∀ m₁ m₂ p, result (pool.reserveFor Memory.store owner requested) m₁ = (.ok p, m₂) →
      ∃ l, pool.lease p = .ok l := by
  refine ⟨fun e m' => ?_, fun m₁ m₂ p hreserve => ?_⟩
  · rw [← choice_eq_error_iff hs.sound, result_acquire m owner hs.sound]
    cases hchoice : pool.choice m requested with
    | error e' =>
      rw [Prod.mk.injEq, Except.error.injEq, Except.error.injEq]
      exact and_congr_right fun _ => eq_comm
    | ok p =>
      obtain ⟨hspanned, -⟩ := choice_eq_ok m hs.sound hchoice
      obtain ⟨l, hl, -⟩ := lease_of_spanned hs.sound hspanned
      simp [hl]
  · obtain ⟨l, hl, -⟩ := lease_of_spanned hs.sound (spanned_of_reserveFor hs.sound hreserve)
    exact ⟨l, hl⟩

theorem acquire_eq_error_iff_halfFull : joinedSet.Canonicalized ∧
    result (acquire ⟨joinedSet, 7⟩ Memory.store "dummy" (some (.toMapped (.ofNat .v4 0x0A000002))))
        { halfFull with held := true } =
      (.error (.requestedTaken (.ofNat .v4 0x0A000002) joinedSet.text),
        { halfFull with held := false }) := by
  have hs : joinedSet.Canonicalized := ⟨joinedSet, rfl⟩
  have hfind : joinedSet.find? (.toMapped (.ofNat .v4 0x0A000002)) = some ⟨0, by decide⟩ := by
    decide +kernel
  have htaken : halfFull.owner? (Address.toMapped (.ofNat .v4 0x0A000002)).canonical ≠ none := by
    decide +kernel
  refine ⟨hs, ((acquire_eq_error_iff hs "dummy" _ { halfFull with held := true }).1 _ _).mpr ?_⟩
  exact ⟨Or.inl (.request hfind (by decide +kernel) htaken), rfl⟩

end Pool

end AddressPool
