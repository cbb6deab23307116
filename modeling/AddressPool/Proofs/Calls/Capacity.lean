import AddressPool.Proofs.Allocation.NextFree
import AddressPool.Proofs.Calls
import Mathlib.Tactic

/-!
# How much a set can give

Requests for addresses of a set's choice take the free candidates of the set, each once, and when
none is left they change nothing (`exists_given`).  So a set of which nothing is reserved can give as
many addresses as it has candidates (`gives_every_candidate`).
-/

namespace AddressPool

open Attempt

def Pool.requests (pool : Pool) (owners : List String) : List Call :=
  owners.map fun owner => .acquire pool owner none

namespace Pool

variable {pool : Pool} {m : Memory} {owner : String} {p : Position pool.set}

/-- What a request comes to: a position is reserved and leased, or there is none to be had. -/
def Answers (pool : Pool) (owner : String) (m : Memory) : Option (Position pool.set) → Prop
  | some p => ∃ l, p.LeasedAs l ∧ result ((Call.acquire pool owner none).run Memory.store) m =
      (.ok (.lease l), (m.grant owner p.address pool.id).unlocked)
  | none => result ((Call.acquire pool owner none).run Memory.store) m =
      (.error (.exhausted pool.set.text), m.unlocked)

def free (pool : Pool) (m : Memory) : List (Position pool.set) :=
  pool.set.candidates.filter fun p => m.IsFree p.address

theorem answers_firstFreeAfter? (hs : pool.set.Sound) (owner : String) (m : Memory) :
    pool.Answers owner m (pool.firstFreeAfter? m m.last[pool.id]?) := by
  have hacquire := result_acquire_answering hs Memory.lastReserved owner m
  have hlast : (Memory.lastReserved { m with held := true } pool.id).toOption = m.last[pool.id]? :=
    Memory.toOption_lastReserved _ _
  rw [hlast] at hacquire
  cases hfree : pool.firstFreeAfter? m m.last[pool.id]? with
  | none =>
    rw [hfree] at hacquire
    exact result_bind_of_error hacquire _
  | some p =>
    have hspanned := (hs.mem_candidatesAfter.mp (List.mem_of_find?_eq_some hfree)).1
    obtain ⟨l, hl, hleased⟩ := lease_of_spanned hs hspanned
    rw [hfree] at hacquire
    dsimp only at hacquire
    rw [hl] at hacquire
    exact ⟨l, hleased, result_bind_of_ok hacquire _⟩

/-! ### What is left -/

theorem free_eq_nil (hs : pool.set.Sound) {a? : Option Address}
    (h : pool.firstFreeAfter? m a? = none) : pool.free m = [] := by
  rw [free, List.filter_eq_nil_iff]
  intro p hp
  have hmem : p ∈ pool.set.candidatesAfter a? :=
    hs.mem_candidatesAfter.mpr (hs.mem_candidates.mp hp)
  exact List.find?_eq_none.mp h p hmem

theorem mem_free (hs : pool.set.Sound) {a? : Option Address}
    (h : pool.firstFreeAfter? m a? = some p) : p ∈ pool.free m := by
  have hmem := hs.mem_candidatesAfter.mp (List.mem_of_find?_eq_some h)
  obtain ⟨hfree, -⟩ := List.find?_eq_some_iff_append.mp h
  exact List.mem_filter.mpr ⟨hs.mem_candidates.mpr hmem, hfree⟩

theorem eq_of_address_eq (hs : pool.set.Sound) {q : Position pool.set}
    (hp : p ∈ pool.set.candidates) (hq : q ∈ pool.set.candidates) (h : p.address = q.address) :
    p = q :=
  hs.eq_of_address_eq (hs.mem_candidates.mp hp).1 (hs.mem_candidates.mp hq).1 h

theorem free_grant (hs : pool.set.Sound) (hp : p ∈ pool.free m) (owner : String) :
    pool.free (m.grant owner p.address pool.id).unlocked = (pool.free m).erase p := by
  have hnodup : (pool.free m).Nodup := (hs.positions_nodup.filter _).filter _
  rw [hnodup.erase_eq_filter, free, free, List.filter_filter]
  apply List.filter_congr
  intro q hq
  have howner : (m.grant owner p.address pool.id).unlocked.owner? q.address = _ :=
    m.owner?_grant owner p.address q.address pool.id
  have hsame : p.address = q.address ↔ p = q :=
    ⟨eq_of_address_eq hs (List.mem_of_mem_filter hp) hq, fun h => h ▸ rfl⟩
  rw [Memory.IsFree, Memory.IsFree, howner]
  by_cases hqp : p = q
  · simp [hqp]
  · simp [hsame, hqp, Ne.symm hqp]

theorem perm_free (hs : pool.set.Sound) (hp : p ∈ pool.free m) {ps : List (Position pool.set)}
    (h : ps.Perm (pool.free (m.grant owner p.address pool.id).unlocked)) :
    (p :: ps).Perm (pool.free m) := by
  rw [free_grant hs hp] at h
  exact (h.cons p).trans (List.perm_cons_erase hp).symm

/-- **Requests take the free candidates of a set, each once, and then nothing.** -/
theorem exists_given (hs : pool.set.Sound) (owners : List String) (m : Memory) :
    ∃ ps : List (Position pool.set), ps.Perm (pool.free m) ∧ ∀ k owner, owners[k]? = some owner →
      pool.Answers owner (stateAfter Memory.store (pool.requests owners) m k) ps[k]? := by
  induction owners generalizing m with
  | nil => exact ⟨pool.free m, .refl _, by simp⟩
  | cons first owners ih =>
    have hanswers := answers_firstFreeAfter? hs first m
    cases hfree : pool.firstFreeAfter? m m.last[pool.id]? with
    | none =>
      rw [hfree] at hanswers
      have hnil : pool.free m = [] := free_eq_nil hs hfree
      obtain ⟨ps, hps, hlater⟩ := ih m.unlocked
      obtain rfl : ps = [] := by simpa [free, Memory.unlocked] using hps.trans (.of_eq hnil)
      refine ⟨[], .of_eq hnil.symm, fun k owner hk => ?_⟩
      cases k with
      | zero =>
        obtain rfl := Option.some.inj hk
        exact hanswers
      | succ k =>
        rw [requests, List.map_cons, stateAfter_cons_succ, hanswers]
        exact hlater k owner hk
    | some p =>
      rw [hfree] at hanswers
      obtain ⟨l, hleased, hrun⟩ := hanswers
      obtain ⟨ps, hps, hlater⟩ := ih (m.grant first p.address pool.id).unlocked
      refine ⟨p :: ps, perm_free hs (mem_free hs hfree) hps, fun k owner hk => ?_⟩
      cases k with
      | zero =>
        obtain rfl := Option.some.inj hk
        exact ⟨l, hleased, hrun⟩
      | succ k =>
        rw [requests, List.map_cons, stateAfter_cons_succ, hrun]
        exact hlater k owner hk

/-- **A set of which nothing is reserved gives each of its candidates once before it is
exhausted**, and then requests change nothing. -/
theorem gives_every_candidate (hs : pool.set.Canonicalized) {m : Memory}
    (hfree : ∀ r ∈ pool.set.members, ∀ a, r.Spans a → a ≠ r.gateway → m.owner? a = none)
    (owners : List String) {events : List Event} {m' : Memory}
    (hrun : Action.result (history Memory.store (pool.requests owners)) m = (events, m')) :
    ∃ ps : List (Position pool.set), ps.Perm pool.set.candidates ∧
      (ps.map Position.address).Nodup ∧ ∀ k owner, owners[k]? = some owner →
        (∀ p, ps[k]? = some p → ∃ l, p.LeasedAs l ∧
          events[k]? = some ⟨.acquire pool owner none, .ok (.lease l)⟩) ∧
        (ps[k]? = none →
          events[k]? = some ⟨.acquire pool owner none, .error (.exhausted pool.set.text)⟩ ∧
          (stateAfter Memory.store (pool.requests owners) m (k + 1)).owners =
            (stateAfter Memory.store (pool.requests owners) m k).owners ∧
          (stateAfter Memory.store (pool.requests owners) m (k + 1)).last =
            (stateAfter Memory.store (pool.requests owners) m k).last) := by
  obtain rfl : (Action.result (history Memory.store (pool.requests owners)) m).1 = events :=
    congrArg Prod.fst hrun
  obtain ⟨ps, hps, hanswers⟩ := exists_given hs.sound owners m
  have hall : pool.free m = pool.set.candidates := by
    apply List.filter_eq_self.mpr
    intro p hp
    obtain ⟨hspanned, hgateway⟩ := hs.sound.mem_candidates.mp hp
    exact Memory.isFree_iff.mpr
      (hfree p.range (pool.set.member_mem p.member) p.address hspanned hgateway)
  rw [hall] at hps
  refine ⟨ps, hps, ?_, fun k owner hk => ?_⟩
  · refine (hps.nodup_iff.mpr (hs.sound.positions_nodup.filter _)).map_on ?_
    intro p hp q hq
    exact eq_of_address_eq hs.sound (hps.mem_iff.mp hp) (hps.mem_iff.mp hq)
  · have hcall : (pool.requests owners)[k]? = some (.acquire pool owner none) := by
      rw [requests, List.getElem?_map, hk]
      rfl
    have hk := hanswers k owner hk
    have hstate := stateAfter_succ Memory.store hcall m
    rw [getElem?_history, hcall, Option.map_some]
    constructor
    · intro p hp
      rw [hp] at hk
      obtain ⟨l, hleased, hanswer⟩ := hk
      exact ⟨l, hleased, by rw [hanswer]⟩
    · intro hnone
      rw [hnone] at hk
      have hanswer : result ((Call.acquire pool owner none).run Memory.store) _ = _ := hk
      rw [hstate, hanswer]
      exact ⟨rfl, rfl, rfl⟩

/-- Nothing is reserved, and the address that was reserved last is the last of the set. -/
def marked : Memory where
  last := (∅ : Std.ExtTreeMap Nat Address).insert 7 (.ofNat .v4 0x0A000102)

theorem gives_every_candidate_joinedSet : joinedSet.Canonicalized ∧ ∃ events m' p l,
    Action.result (history Memory.store
      (requests ⟨joinedSet, 7⟩ ["dummy", "other", "dummy"])) marked = (events, m') ∧
    p ∈ joinedSet.candidates ∧ p.LeasedAs l ∧
    events[1]? = some ⟨.acquire ⟨joinedSet, 7⟩ "other" none, .ok (.lease l)⟩ ∧
    events[2]? = some ⟨.acquire ⟨joinedSet, 7⟩ "dummy" none,
      .error (.exhausted joinedSet.text)⟩ := by
  have hs : joinedSet.Canonicalized := ⟨joinedSet, rfl⟩
  rcases hrun : Action.result (history Memory.store
    (requests ⟨joinedSet, 7⟩ ["dummy", "other", "dummy"])) marked with ⟨events, m'⟩
  have hfree : ∀ r ∈ joinedSet.members, ∀ a, r.Spans a → a ≠ r.gateway →
      marked.owner? a = none := by
    intro r _ a _ _
    simp [marked, Memory.owner?]
  obtain ⟨ps, hps, -, hgiven⟩ := gives_every_candidate hs hfree _ hrun
  have hlength : ps.length = 2 := hps.length_eq.trans (by decide +kernel)
  have hone : 1 < ps.length := by omega
  have hsecond : ps[1]? = some ps[1] := List.getElem?_eq_getElem hone
  obtain ⟨l, hleased, hgives⟩ := (hgiven 1 "other" rfl).1 _ hsecond
  obtain ⟨hnothing, -⟩ := (hgiven 2 "dummy" rfl).2 (by simp [hlength])
  exact ⟨hs, events, m', ps[1], l, rfl, hps.mem_iff.mp (List.getElem_mem hone), hleased, hgives,
    hnothing⟩

end Pool

end AddressPool
