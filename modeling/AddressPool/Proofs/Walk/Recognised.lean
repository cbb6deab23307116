import AddressPool.Proofs.Allocation
import Mathlib.Tactic

/-!
# What a set knows of the positions that it offers

A walk counts addresses upwards, while a set is asked for an address in its canonical form.  The two
fall apart where an address stands for another one: a set of the longer family may span the block of
such addresses, and then it offers positions of the block that it does not find again
(`Walk.recognised_iff`).  A walk does not resume behind such a position but begins anew, and a request
for its address is refused (`Walk.not_lookup_of_take`).
-/

namespace AddressPool

open Attempt

/-! ### The first candidates of a walk -/

namespace Walk

variable {s : RangeSet} {w : Walk s} {ps : List (Position s)} {p : Position s}

theorem take_of_yields (h : w.Yields ps) (most : Nat) : (w.take most).1 = ps.take most := by
  induction h generalizing most with
  | @done w w' hnext =>
    cases most with
    | zero => rfl
    | succ most => simp [take, hnext]
  | @step w w' p ps hnext _ ih =>
    cases most with
    | zero => rfl
    | succ most => simp [take, hnext, ih]

theorem candidate_of_take (hs : s.Sound) {a? : Option Address} {most : Nat}
    (hp : p ∈ ((after s a?).take most).1) : p.Spanned ∧ p.address ≠ p.range.gateway := by
  rw [take_of_yields (yields_after hs a?)] at hp
  exact hs.mem_candidatesAfter.mp (List.mem_of_mem_take hp)

end Walk

/-! ### Finding a position again -/

namespace RangeSet.Sound

variable {s : RangeSet} {p : Position s}

theorem find?_of_spanned (hs : s.Sound) (hp : p.Spanned) (hplain : p.address.mapped? = none) :
    s.find? p.address = some p.member := by
  have hcanonical := Address.canonical_eq_self_iff.mpr hplain
  have hcontains : s.contains p.address = true :=
    contains_iff.mpr ⟨p.range, s.member_mem p.member, by
      rw [hcanonical]
      exact (hs.member p.member).contains_of_spans hp hcanonical⟩
  obtain ⟨i, hi⟩ := Option.isSome_iff_exists.mp hcontains
  have hspans := hs.spans_of_find? hi
  rw [hcanonical] at hspans
  rw [hi, hs.member_unique hspans hp]

theorem find?_of_mapped (hs : s.Sound) (hp : p.Spanned) (hmapped : p.address.mapped? ≠ none) :
    s.find? p.address = none := by
  rw [Option.eq_none_iff_forall_ne_some]
  intro i hi
  have hspans := hs.spans_of_find? hi
  have hfamily := hs.one_family _ (s.member_mem i) _ (s.member_mem p.member)
  rw [(hs.member i).family_start, (hs.member p.member).family_start,
    ← (hs.member i).family_eq hspans, ← (hs.member p.member).family_eq hp] at hfamily
  exact hmapped (Address.canonical_eq_self_iff.mp (Address.canonical_eq_self_of_family hfamily))

end RangeSet.Sound

/-- A set knows a position by its address: it is found in the member of the position, a walk that
resumes after it stands there, and a request for it is left to the store. -/
structure Position.Recognised {s : RangeSet} (p : Position s) : Prop where
  found : s.lookup p.address = .ok p.member
  resumed : Walk.after s (some p.address) = ⟨some p, none⟩
  requested : ∀ {σ : Type} (store : Store σ) (owner : String) (id : Nat) (t : σ),
    result (Pool.reserveRequested ⟨s, id⟩ store owner p.address.canonical) t =
      match result (store.reserve owner p.address id) t with
      | (.ok true, t) => (.ok p, t)
      | (.ok false, t) => (.error (.requestedTaken p.address s.text), t)
      | (.error e, t) => (.error e, t)

namespace Walk

variable {s : RangeSet} {p : Position s}

theorem recognised_of_find? (hgateway : p.address ≠ p.range.gateway)
    (hplain : p.address.mapped? = none) (hfind : s.find? p.address = some p.member) :
    p.Recognised := by
  have hcanonical := Address.canonical_eq_self_iff.mpr hplain
  have hlookup := RangeSet.lookup_eq_ok_iff.mpr hfind
  have hnot : p.isGateway = false := by simpa [Position.isGateway] using hgateway
  refine ⟨hlookup, ?_, fun store owner id t => ?_⟩
  · simp [after, hcanonical, hfind]
  · rw [hcanonical, Pool.result_reserveRequested, hlookup]
    refine (if_neg (by simp [hnot])).trans ?_
    rcases result (store.reserve owner p.address id) t with ⟨_ | _ | _, _⟩ <;> rfl

/-- **A set knows a position that it offers exactly if the address stands for no other.** -/
theorem recognised_iff (hs : s.Canonicalized) {a? : Option Address} {most : Nat}
    (hp : p ∈ ((after s a?).take most).1) : p.Recognised ↔ p.address.mapped? = none := by
  obtain ⟨hspanned, hgateway⟩ := candidate_of_take hs.sound hp
  constructor
  · intro h
    by_contra hmapped
    have hfind := RangeSet.lookup_eq_ok_iff.mp h.found
    rw [hs.sound.find?_of_mapped hspanned hmapped] at hfind
    cases hfind
  · intro hplain
    exact recognised_of_find? hgateway hplain (hs.sound.find?_of_spanned hspanned hplain)

/-- A set that begins just before the block of addresses that stand for others, and ends behind
it. -/
def acrossBlock : RangeSet :=
  ⟨[{ subnet := ⟨.ofNat .v6 0, 64, (by decide : 64 ≤ 128)⟩
      start? := some (.ofNat .v6 (Address.mappedBase - 1))
      last? := some (.ofNat .v6 (Address.mappedBase + 2 ^ 32 + 5))
      gateway? := some (.ofNat .v6 1) }]⟩

theorem canonicalized_acrossBlock : acrossBlock.Canonicalized :=
  ⟨acrossBlock, rfl⟩

def firstInBlock : Position acrossBlock :=
  ⟨⟨0, by decide⟩, .ofNat .v6 Address.mappedBase⟩

theorem recognised_iff_firstInBlock :
    acrossBlock.Canonicalized ∧ firstInBlock ∈ ((after acrossBlock none).take 2).1 ∧
      (firstInBlock.Recognised ↔ firstInBlock.address.mapped? = none) := by
  have hmem : firstInBlock ∈ ((after acrossBlock none).take 2).1 := by decide +kernel
  exact ⟨canonicalized_acrossBlock, hmem, recognised_iff canonicalized_acrossBlock hmem⟩

theorem not_lookup_of_take :
    ¬ ∀ (s : RangeSet) (a? : Option Address) (most : Nat) (p : Position s), s.Canonicalized →
      p ∈ ((after s a?).take most).1 → s.lookup p.address = .ok p.member := by
  intro hfound
  have hmem : firstInBlock ∈ ((after acrossBlock none).take 2).1 := by decide +kernel
  have hlookup := hfound acrossBlock none 2 firstInBlock canonicalized_acrossBlock hmem
  have hnone : acrossBlock.find? firstInBlock.address = none := by decide +kernel
  rw [RangeSet.lookup_eq_ok_iff, hnone] at hlookup
  cases hlookup

end Walk

end AddressPool
