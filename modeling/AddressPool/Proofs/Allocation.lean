import AddressPool.Allocation
import AddressPool.Proofs.Store.Memory
import AddressPool.Proofs.Walk
import Mathlib.Tactic

/-!
# What one set gives

On any store, a set for which nothing is requested tries its candidates one after the other in the
order of `RangeSet.candidatesAfter` (`Pool.result_reserveNext`), and the lease of an address between
the bounds of a member can always be made out (`Pool.lease_of_spanned`).

On a store in memory this comes to a choice that is made before anything is changed, `Pool.choice`:
what is requested, if it can be had, or else the first candidate that is free.  The whole attempt
grants the choice and gives the lock back, or it only gives the lock back
(`Pool.result_acquire`).
-/

namespace AddressPool

/-- A lease hands out an address as one of its member: with the shared bits and the gateway of that.
-/
structure Position.LeasedAs {s : RangeSet} (p : Position s) (l : Lease) : Prop where
  version : l.version = p.address.family.version
  address : l.address.address = p.address
  length : l.address.length = p.range.subnet.length
  gateway : l.gateway = p.range.gateway

namespace Pool

open Attempt

variable {σ : Type} {pool : Pool}

/-! ### On any store -/

/-- Tries to reserve some candidates one after the other, until one of them is won. -/
def reserveAmong (pool : Pool) (store : Store σ) (owner : String) :
    List (Position pool.set) → Attempt σ (Option (Position pool.set))
  | [] => return none
  | p :: ps => do
    if ← store.reserve owner p.address pool.id then return some p
    pool.reserveAmong store owner ps

theorem result_reserveFirst (store : Store σ) (owner : String) {w : Walk pool.set}
    {ps : List (Position pool.set)} (hyields : w.Yields ps) {most : Nat}
    (hmost : ps.length ≤ most) (s : σ) (log : Log) :
    result (.ofVerdict fun s => pool.reserveFirst store owner most w s log) s =
      result (pool.reserveAmong store owner ps) s := by
  induction hyields generalizing most s log with
  | @done w w' hnext =>
    cases most with
    | zero => rfl
    | succ most =>
      change ((pool.reserveFirst store owner (most + 1) w s log).value,
        (pool.reserveFirst store owner (most + 1) w s log).state) = _
      simp [reserveFirst, hnext, reserveAmong]
  | @step w w' p ps hnext _ ih =>
    cases most with
    | zero => exact absurd hmost (by simp)
    | succ most =>
      rw [reserveAmong, result_bind]
      change ((pool.reserveFirst store owner (most + 1) w s log).value,
        (pool.reserveFirst store owner (most + 1) w s log).state) = _
      simp only [reserveFirst, hnext]
      have hreserve : ((store.reserve owner p.address pool.id).verdict s).value =
          (result (store.reserve owner p.address pool.id) s).1 := rfl
      have hstate : ((store.reserve owner p.address pool.id).verdict s).state =
          (result (store.reserve owner p.address pool.id) s).2 := rfl
      rw [hreserve, hstate]
      rcases result (store.reserve owner p.address pool.id) s with ⟨_ | _ | _, s'⟩
      · rfl
      · exact ih (Nat.le_of_succ_le_succ hmost) s' _
      · rfl

theorem result_walk (pool : Pool) (store : Store σ) (s : σ) :
    Action.result (pool.walk store) s =
      (Walk.after pool.set (result (store.lastReserved pool.id) s).1.toOption,
        (result (store.lastReserved pool.id) s).2) := by
  rw [walk, Action.result_bind, result_verdict]
  rcases result (store.lastReserved pool.id) s with ⟨e | _, s'⟩
  · cases e <;> rfl
  · rfl

/-- **A set gives the first of its candidates that the store lets it have.** -/
theorem result_reserveNext (hs : pool.set.Sound) (store : Store σ) (owner : String) (s : σ) :
    result (pool.reserveNext store owner) s =
      match result (store.lastReserved pool.id) s with
      | (last, s) =>
        match result (pool.reserveAmong store owner (pool.set.candidatesAfter last.toOption)) s with
        | (.ok (some p), s) => (.ok p, s)
        | (.ok none, s) => (.error (.exhausted pool.set.text), s)
        | (.error e, s) => (.error e, s) := by
  rcases hlast : result (store.lastReserved pool.id) s with ⟨last, s'⟩
  have hwalk : result (ExceptT.lift (pool.walk store)) s =
      (.ok (Walk.after pool.set last.toOption), s') := by
    rw [result_lift, result_walk, hlast]
  have hfirst := result_reserveFirst store owner (Walk.yields_after hs last.toOption)
    (hs.length_candidatesAfter_le _) s' #[]
  rw [reserveNext, result_bind_of_ok hwalk]
  dsimp only
  rcases hamong : result (pool.reserveAmong store owner _) s' with ⟨_ | _ | _, _⟩
  · exact result_bind_of_error (hfirst.trans hamong) _
  · exact result_bind_of_ok (hfirst.trans hamong) _
  · exact result_bind_of_ok (hfirst.trans hamong) _

theorem result_reserveRequested (store : Store σ) (owner : String) (a : Address) (s : σ) :
    result (pool.reserveRequested store owner a) s =
      match pool.set.lookup a with
      | .error e => (.error e, s)
      | .ok i =>
        if Position.isGateway ⟨i, a⟩ then (.error (.requestedGateway a), s)
        else
          match result (store.reserve owner a pool.id) s with
          | (.ok true, s) => (.ok ⟨i, a⟩, s)
          | (.ok false, s) => (.error (.requestedTaken a pool.set.text), s)
          | (.error e, s) => (.error e, s) := by
  rw [reserveRequested, result_bind, result_ofExcept]
  cases pool.set.lookup a with
  | error e => rfl
  | ok i =>
    dsimp only
    split_ifs
    · rfl
    · rw [result_bind]
      rcases result (store.reserve owner a pool.id) s with ⟨_ | _ | _, _⟩ <;> rfl

/-- Reserves the address that is requested, or one of the set's choice. -/
def reserveFor (pool : Pool) (store : Store σ) (owner : String) :
    Option Address → Attempt σ (Position pool.set)
  | some a => pool.reserveRequested store owner a.canonical
  | none => pool.reserveNext store owner

theorem acquire_eq (pool : Pool) (store : Store σ) (owner : String) (requested : Option Address) :
    pool.acquire store owner requested = store.locked (do
      let p ← pool.reserveFor store owner requested
      Attempt.report .info s!"Allocated {p.address} to {owner} from range set {pool.id}"
      Attempt.ofExcept (pool.lease p)) := by
  cases requested <;> rfl

theorem result_acquire_eq (store : Store σ) (owner : String) (requested : Option Address) (s : σ) :
    result (pool.acquire store owner requested) s =
      match result store.lock s with
      | (.error e, s) => (.error e, s)
      | (.ok _, s) =>
        match result (pool.reserveFor store owner requested) s with
        | (.ok p, s) => (pool.lease p, (result store.unlock s).2)
        | (.error e, s) => (.error e, (result store.unlock s).2) := by
  rw [acquire_eq, Store.result_locked]
  rcases result store.lock s with ⟨_ | _, s'⟩
  · rfl
  · dsimp only
    rw [result_bind]
    rcases result (pool.reserveFor store owner requested) s' with ⟨_ | _, _⟩ <;> rfl

theorem result_acquire_of_lock {store : Store σ} {owner : String} {requested : Option Address}
    {s s' : σ} (hlock : result store.lock s = (.ok (), s')) :
    result (pool.acquire store owner requested) s =
      match result (pool.reserveFor store owner requested) s' with
      | (.ok p, s) => (pool.lease p, (result store.unlock s).2)
      | (.error e, s) => (.error e, (result store.unlock s).2) := by
  rw [result_acquire_eq, hlock]

theorem lease_of_spanned (hs : pool.set.Sound) {p : Position pool.set} (hp : p.Spanned) :
    ∃ l, pool.lease p = .ok l ∧ p.LeasedAs l := by
  have hfamily := (hs.member p.member).family_eq hp
  have hlength := (hs.member p.member).room
  have hfits : p.range.subnet.length ≤ p.address.family.bits := by
    change (pool.set.member p.member).subnet.length ≤ _
    rw [hfamily]
    omega
  rw [lease, Network.of?, dif_pos hfits]
  exact ⟨_, rfl, rfl, rfl, rfl, rfl⟩

theorem won_of_reserveAmong {store : Store σ} {owner : String} {ps : List (Position pool.set)}
    {p : Position pool.set} {s s' : σ}
    (h : result (pool.reserveAmong store owner ps) s = (.ok (some p), s')) :
    p ∈ ps ∧ ∃ s₁, result (store.reserve owner p.address pool.id) s₁ = (.ok true, s') := by
  induction ps generalizing s with
  | nil => cases h
  | cons q ps ih =>
    rw [reserveAmong, result_bind] at h
    rcases hreserve : result (store.reserve owner q.address pool.id) s with ⟨_ | _ | _, s₁⟩
    · rw [hreserve] at h
      cases h
    · rw [hreserve] at h
      obtain ⟨hmem, hwon⟩ := ih h
      exact ⟨List.mem_cons_of_mem q hmem, hwon⟩
    · rw [hreserve] at h
      cases h
      exact ⟨List.mem_cons_self, s, hreserve⟩

/-- **What is reserved lies between the bounds of a member and is not its gateway, and the store has
let the set have it.** -/
theorem won_of_reserveFor (hs : pool.set.Sound) {store : Store σ} {owner : String}
    {requested : Option Address} {p : Position pool.set} {s s' : σ}
    (h : result (pool.reserveFor store owner requested) s = (.ok p, s')) :
    p.Spanned ∧ p.address ≠ p.range.gateway ∧
      ∃ s₁, result (store.reserve owner p.address pool.id) s₁ = (.ok true, s') := by
  cases requested with
  | none =>
    rw [reserveFor, result_reserveNext hs] at h
    rcases hlast : result (store.lastReserved pool.id) s with ⟨last, s₁⟩
    rw [hlast] at h
    dsimp only at h
    rcases hamong : result (pool.reserveAmong store owner
      (pool.set.candidatesAfter last.toOption)) s₁ with ⟨_ | _ | q, s₂⟩
    · rw [hamong] at h
      cases h
    · rw [hamong] at h
      cases h
    · rw [hamong] at h
      cases h
      obtain ⟨hmem, hwon⟩ := won_of_reserveAmong hamong
      obtain ⟨hspanned, hgateway⟩ := hs.mem_candidatesAfter.mp hmem
      exact ⟨hspanned, hgateway, hwon⟩
  | some a =>
    rw [reserveFor, result_reserveRequested] at h
    cases hlookup : pool.set.lookup a.canonical with
    | error e =>
      rw [hlookup] at h
      cases h
    | ok i =>
      have hspanned := hs.spanned_of_find? (RangeSet.lookup_eq_ok_iff.mp hlookup)
      rw [Address.canonical_canonical] at hspanned
      rw [hlookup] at h
      dsimp only at h
      split_ifs at h with hgateway
      · cases h
      · rcases hreserve : result (store.reserve owner a.canonical pool.id) s with ⟨_ | _ | _, s₁⟩
        · rw [hreserve] at h
          cases h
        · rw [hreserve] at h
          cases h
        · rw [hreserve] at h
          cases h
          exact ⟨hspanned, by simpa [Position.isGateway] using hgateway, s, hreserve⟩

theorem spanned_of_reserveFor (hs : pool.set.Sound) {store : Store σ} {owner : String}
    {requested : Option Address} {p : Position pool.set} {s s' : σ}
    (h : result (pool.reserveFor store owner requested) s = (.ok p, s')) : p.Spanned :=
  (won_of_reserveFor hs h).1

/-! ### On a store in memory -/

/-- The first candidate of a set that is free, round from where the marker stands. -/
def firstFree? (pool : Pool) (m : Memory) : Option (Position pool.set) :=
  (pool.set.candidatesAfter m.last[pool.id]?).find? fun p => (m.owner? p.address).isNone

/-- What a set will give, or why it will not. -/
def choice (pool : Pool) (m : Memory) : Option Address → Except Error (Position pool.set)
  | none =>
    match pool.firstFree? m with
    | some p => .ok p
    | none => .error (.exhausted pool.set.text)
  | some a =>
    match pool.set.lookup a.canonical with
    | .error e => .error e
    | .ok i =>
      let p : Position pool.set := ⟨i, a.canonical⟩
      if p.isGateway then .error (.requestedGateway p.address)
      else if (m.owner? p.address).isNone then .ok p
      else .error (.requestedTaken p.address pool.set.text)

variable (m : Memory) (owner : String)

theorem result_reserveAmong (ps : List (Position pool.set)) :
    result (pool.reserveAmong Memory.store owner ps) m =
      match ps.find? fun p => (m.owner? p.address).isNone with
      | some p => (.ok (some p), m.grant owner p.address pool.id)
      | none => (.ok none, m) := by
  induction ps with
  | nil => rfl
  | cons p ps ih =>
    rw [reserveAmong, result_bind, Memory.result_reserve]
    cases hfree : m.owner? p.address with
    | none =>
      rw [List.find?_cons_of_pos (by simp [hfree]), Memory.reserve_of_free pool.id hfree]
      rfl
    | some o =>
      rw [List.find?_cons_of_neg (by simp [hfree]),
        Memory.reserve_of_taken pool.id (by simp [hfree])]
      exact ih

theorem result_reserveNext_memory (hs : pool.set.Sound) :
    result (pool.reserveNext Memory.store owner) m =
      match pool.choice m none with
      | .ok p => (.ok p, m.grant owner p.address pool.id)
      | .error e => (.error e, m) := by
  rw [result_reserveNext hs, Memory.result_lastReserved]
  dsimp only
  rw [Memory.toOption_lastReserved, result_reserveAmong, choice, firstFree?]
  cases List.find? _ _ <;> rfl

theorem result_reserveRequested_memory (a : Address) :
    result (pool.reserveRequested Memory.store owner a.canonical) m =
      match pool.choice m (some a) with
      | .ok p => (.ok p, m.grant owner p.address pool.id)
      | .error e => (.error e, m) := by
  rw [result_reserveRequested, choice]
  cases pool.set.lookup a.canonical with
  | error e => rfl
  | ok i =>
    dsimp only
    split_ifs with hgateway hfree
    · rfl
    · rw [Memory.result_reserve,
        Memory.reserve_of_free pool.id (Option.isNone_iff_eq_none.mp hfree)]
    · rw [Memory.result_reserve, Memory.reserve_of_taken pool.id (by simpa using hfree)]

theorem firstFree?_eq_some (hs : pool.set.Sound) {p : Position pool.set}
    (h : pool.firstFree? m = some p) :
    p.Spanned ∧ p.address ≠ p.range.gateway ∧ m.owner? p.address = none := by
  have hmem := hs.mem_candidatesAfter.mp (List.mem_of_find?_eq_some h)
  have hfree : (m.owner? p.address).isNone = true := by
    rw [firstFree?, List.find?_eq_some_iff_append] at h
    exact h.1
  exact ⟨hmem.1, hmem.2, Option.isNone_iff_eq_none.mp hfree⟩

theorem exists_firstFree?_iff (hs : pool.set.Sound) :
    (∃ p, pool.firstFree? m = some p) ↔
      ∃ r ∈ pool.set.members, ∃ a, r.Spans a ∧ a ≠ r.gateway ∧ m.owner? a = none := by
  constructor
  · rintro ⟨p, hp⟩
    obtain ⟨hspanned, hgateway, hfree⟩ := firstFree?_eq_some m hs hp
    exact ⟨p.range, pool.set.member_mem p.member, p.address, hspanned, hgateway, hfree⟩
  · rintro ⟨r, hr, a, hspans, hgateway, hfree⟩
    obtain ⟨p, hp, rfl⟩ := hs.exists_mem_candidatesAfter m.last[pool.id]? hr hspans hgateway
    rw [← Option.isSome_iff_exists, firstFree?, List.find?_isSome]
    exact ⟨p, hp, by simp [hfree]⟩

theorem choice_none_iff {p : Position pool.set} :
    pool.choice m none = .ok p ↔ pool.firstFree? m = some p := by
  rw [choice]
  cases pool.firstFree? m <;> simp

theorem choice_some_iff {a : Address} (hcanonical : a.canonical = a) {p : Position pool.set} :
    pool.choice m (some a) = .ok p ↔
      pool.set.find? a = some p.member ∧ p.address = a ∧ a ≠ p.range.gateway ∧
        m.owner? a = none := by
  rw [choice, hcanonical]
  cases hlookup : pool.set.lookup a with
  | error e =>
    refine iff_of_false (by simp) ?_
    rintro ⟨hfind, -⟩
    rw [RangeSet.lookup_eq_ok_iff.mpr hfind] at hlookup
    cases hlookup
  | ok i =>
    rw [RangeSet.lookup_eq_ok_iff.mp hlookup]
    obtain ⟨j, b⟩ := p
    dsimp only
    split_ifs with hgateway hfree
    · refine iff_of_false (by simp) ?_
      rintro ⟨hij, -, hne, -⟩
      cases hij
      exact hne (beq_iff_eq.mp hgateway)
    · simp only [Except.ok.injEq, Position.mk.injEq, Option.some.injEq]
      constructor
      · rintro ⟨rfl, rfl⟩
        exact ⟨rfl, rfl, by simpa [Position.isGateway] using hgateway,
          Option.isNone_iff_eq_none.mp hfree⟩
      · rintro ⟨rfl, rfl, -⟩
        exact ⟨rfl, rfl⟩
    · refine iff_of_false (by simp) ?_
      rintro ⟨-, -, -, hnone⟩
      exact hfree (by simp [hnone])

theorem choice_eq_ok (hs : pool.set.Sound) {requested : Option Address}
    {p : Position pool.set} (h : pool.choice m requested = .ok p) :
    p.Spanned ∧ p.address ≠ p.range.gateway ∧ m.owner? p.address = none := by
  cases requested with
  | none => exact firstFree?_eq_some m hs (choice_none_iff m |>.mp h)
  | some a =>
    have h' : pool.choice m (some a.canonical) = .ok p := by
      rw [choice, Address.canonical_canonical]
      exact h
    obtain ⟨hfind, haddress, hgateway, hfree⟩ :=
      (choice_some_iff m a.canonical_canonical).mp h'
    have hspanned := hs.spanned_of_find? hfind
    rw [Address.canonical_canonical, ← haddress] at hspanned
    exact ⟨hspanned, haddress ▸ hgateway, haddress ▸ hfree⟩

/-- **What an attempt to get an address from one set comes to on a store in memory.** -/
theorem result_acquire (hs : pool.set.Sound) (requested : Option Address) :
    result (pool.acquire Memory.store owner requested) m =
      match pool.choice m requested with
      | .ok p => (pool.lease p, (m.grant owner p.address pool.id).unlocked)
      | .error e => (.error e, m.unlocked) := by
  rw [result_acquire_eq, Memory.result_lock]
  -- the choice does not depend on the lock
  have hreserve : result (pool.reserveFor Memory.store owner requested) { m with held := true } =
      match pool.choice m requested with
      | .ok p => (.ok p, { m.grant owner p.address pool.id with held := true })
      | .error e => (.error e, { m with held := true }) := by
    cases requested with
    | none => exact result_reserveNext_memory _ owner hs
    | some a => exact result_reserveRequested_memory _ owner a
  dsimp only
  rw [hreserve]
  cases pool.choice m requested <;> rfl

end Pool

end AddressPool
