import AddressPool.Allocation.All
import AddressPool.Proofs.Allocation
import Mathlib.Tactic

/-!
# One set after the other

What a call for addresses from all sets comes to, one set at a time: a set that gives an address is
followed by the sets behind it, and one that does not ends the call (`result_acquireEach_cons`), as
do requests that no set has taken (`result_acquireEach_of_waiting`).  A call that fails releases the
sets that gave an address (`acquireEach_nil_error`, `acquireEach_cons_error`).

On a store in memory a set gives what it chooses (`result_acquireEach_of_ok`,
`result_acquireEach_of_error`), and to give up is to roll the memory back (`Memory.rolledBack`).
-/

namespace AddressPool

namespace Allocation

/-! ### Requests -/

theorem takeRequest_eq (s : RangeSet) (waiting : List Address) :
    takeRequest s waiting = (waiting.find? s.contains, waiting.eraseP s.contains) := by
  induction waiting with
  | nil => rfl
  | cons a rest ih =>
    rw [takeRequest]
    split_ifs with ha
    · rw [List.find?_cons_of_pos ha, List.eraseP_cons_of_pos ha]
    · rw [List.find?_cons_of_neg ha, List.eraseP_cons_of_neg ha, ih]

theorem foldl_eq_eraseDups (as found : List Address) :
    as.foldl (fun found a => if found.contains a then found else found ++ [a]) found =
      found ++ (as.filter fun a => !found.contains a).eraseDups := by
  induction as generalizing found with
  | nil => simp
  | cons a as ih =>
    rw [List.foldl_cons, ih]
    by_cases ha : a ∈ found
    · rw [if_pos (by simpa using ha), List.filter_cons_of_neg (by simpa using ha)]
    · rw [if_neg (by simpa using ha), List.filter_cons_of_pos (by simpa using ha),
        List.eraseDups_cons, List.filter_filter, List.append_assoc, List.singleton_append]
      congr 3
      refine List.filter_congr fun b _ => ?_
      rw [Bool.eq_iff_iff]
      simp [and_comm]

theorem nodup_eraseDups (as : List Address) : as.eraseDups.Nodup := by
  match as with
  | [] => exact List.nodup_nil
  | a :: as =>
    rw [List.eraseDups_cons, List.nodup_cons, List.mem_eraseDups]
    exact ⟨by simp, nodup_eraseDups _⟩
termination_by as.length
decreasing_by exact Nat.lt_succ_of_le (List.length_filter_le _ _)

theorem requests_eq (addresses : List Address) :
    requests addresses = (addresses.map Address.canonical).eraseDups := by
  rw [requests, foldl_eq_eraseDups, List.nil_append, List.filter_eq_self.mpr (by simp)]

theorem requests_nodup (addresses : List Address) : (requests addresses).Nodup :=
  requests_eq addresses ▸ nodup_eraseDups _

theorem mem_requests {addresses : List Address} {a : Address} :
    a ∈ requests addresses ↔ ∃ b ∈ addresses, b.canonical = a := by
  rw [requests_eq, List.mem_eraseDups, List.mem_map]

/-! ### The sets of a network -/

end Allocation

theorem length_pools (sets : List RangeSet) : (pools sets).length = sets.length :=
  List.length_mapIdx

theorem getElem?_pools (sets : List RangeSet) (i : Nat) :
    (pools sets)[i]? = sets[i]?.map (Pool.mk · i) :=
  List.getElem?_mapIdx

theorem set_mem_of_mem_pools {sets : List RangeSet} {pool : Pool} (h : pool ∈ pools sets) :
    pool.set ∈ sets := by
  obtain ⟨i, hi⟩ := List.mem_iff_getElem?.mp h
  rw [getElem?_pools, Option.map_eq_some_iff] at hi
  obtain ⟨s, hs, rfl⟩ := hi
  exact List.mem_of_getElem? hs

theorem map_set_pools (sets : List RangeSet) : (pools sets).map Pool.set = sets := by
  apply List.ext_getElem?
  intro i
  rw [List.getElem?_map, getElem?_pools, Option.map_map]
  exact Option.map_id'

theorem map_id_pools (sets : List RangeSet) :
    (pools sets).map Pool.id = List.range sets.length := by
  apply List.ext_getElem (by simp [length_pools])
  intro i _ _
  simp [pools]

theorem id_lt_of_mem_take_pools {sets : List RangeSet} {k j : Nat}
    (h : j ∈ ((pools sets).take k).map Pool.id) : j < k := by
  obtain ⟨pool, hpool, rfl⟩ := List.mem_map.mp h
  obtain ⟨i, hi⟩ := List.mem_iff_getElem?.mp hpool
  rw [List.getElem?_take] at hi
  split_ifs at hi with hik
  rw [getElem?_pools, Option.map_eq_some_iff] at hi
  obtain ⟨s, -, rfl⟩ := hi
  exact hik

namespace Allocation

open Attempt

/-! ### On any store -/

section Store

variable {σ : Type} (store : Store σ) (owner : String) (phase : Phase) (given pools : List Pool)
  (waiting : List Address) (pool : Pool) (s : σ)

theorem result_transition (next : Phase) :
    Action.result (transition owner phase next) s = ((), s) := rfl

theorem result_rollBack (cause : Error) :
    Action.result (rollBack store owner phase given cause) s =
      (cause, (Action.result (releaseEach store owner given) s).2) := rfl

theorem result_releaseEach_cons :
    Action.result (releaseEach store owner (pool :: given)) s =
      Action.result (releaseEach store owner given) (result (pool.release store owner) s).2 := by
  rw [releaseEach, Action.result_bind, result_verdict]
  rcases result (pool.release store owner) s with ⟨_ | _, s'⟩ <;> rfl

theorem result_acquireEach_nil :
    Action.result (acquireEach store owner phase given [] []) s = (.ok [], s) := rfl

theorem result_acquireEach_of_waiting (hwaiting : waiting ≠ []) :
    Action.result (acquireEach store owner phase given waiting []) s =
      (.error (.unmatched waiting), (Action.result (releaseEach store owner given) s).2) := by
  rw [acquireEach, if_neg (by simpa using hwaiting), Action.result_bind, result_rollBack]
  rfl

theorem result_acquireEach_cons :
    Action.result (acquireEach store owner phase given waiting (pool :: pools)) s =
      match result (pool.acquire store owner (waiting.find? pool.set.contains)) s with
      | (.error e, s) =>
        (.error (.allocation pool.id e), (Action.result (releaseEach store owner given) s).2)
      | (.ok l, s) =>
        match Action.result (acquireEach store owner (.allocating pool.id) (given ++ [pool])
          (waiting.eraseP pool.set.contains) pools) s with
        | (verdict, s) => (verdict.map (l :: ·), s) := by
  rw [acquireEach, Action.result_bind, result_transition, takeRequest_eq]
  dsimp only
  rw [Action.result_bind, result_verdict]
  rcases result (pool.acquire store owner _) s with ⟨_ | _, s'⟩ <;> rfl

variable {store owner phase given pools waiting pool s} {s' : σ} {e : Error}

theorem acquireEach_nil_error
    (h : Action.result (acquireEach store owner phase given waiting []) s = (.error e, s')) :
    e = .unmatched waiting ∧ s' = (Action.result (releaseEach store owner given) s).2 := by
  by_cases hwaiting : waiting = []
  · rw [hwaiting, result_acquireEach_nil] at h
    cases h
  · rw [result_acquireEach_of_waiting _ _ _ _ _ _ hwaiting] at h
    cases h
    exact ⟨rfl, rfl⟩

/-- **A call fails at its next set, and those that gave are released, or behind it.** -/
theorem acquireEach_cons_error
    (h : Action.result (acquireEach store owner phase given waiting (pool :: pools)) s =
      (.error e, s')) :
    (∃ cause s₁, result (pool.acquire store owner (waiting.find? pool.set.contains)) s =
        (.error cause, s₁) ∧ e = .allocation pool.id cause ∧
        s' = (Action.result (releaseEach store owner given) s₁).2) ∨
      ∃ l s₁, result (pool.acquire store owner (waiting.find? pool.set.contains)) s =
        (.ok l, s₁) ∧
        Action.result (acquireEach store owner (.allocating pool.id) (given ++ [pool])
          (waiting.eraseP pool.set.contains) pools) s₁ = (.error e, s') := by
  rw [result_acquireEach_cons] at h
  rcases hacquire : result (pool.acquire store owner (waiting.find? pool.set.contains)) s with
    ⟨cause | l, s₁⟩
  · rw [hacquire] at h
    cases h
    exact Or.inl ⟨cause, s₁, rfl, rfl, rfl⟩
  · rw [hacquire] at h
    dsimp only at h
    refine Or.inr ⟨l, s₁, rfl, ?_⟩
    rcases hrest : Action.result (acquireEach store owner (.allocating pool.id)
      (given ++ [pool]) (waiting.eraseP pool.set.contains) pools) s₁ with ⟨e' | ls, s₂⟩
    · rw [hrest] at h
      cases h
      rfl
    · rw [hrest] at h
      cases h

theorem id_mem_of_acquireEach_error {setId : Nat} {cause : Error}
    (h : Action.result (acquireEach store owner phase given waiting pools) s =
      (.error (.allocation setId cause), s')) : setId ∈ pools.map Pool.id := by
  induction pools generalizing phase given waiting s with
  | nil => cases (acquireEach_nil_error h).1
  | cons pool pools ih =>
    rcases acquireEach_cons_error h with ⟨_, _, -, hcause, -⟩ | ⟨_, _, -, hrest⟩
    · cases hcause
      exact List.mem_cons_self
    · exact List.mem_cons_of_mem _ (ih hrest)

end Store

end Allocation

open Allocation Attempt

/-! ### On a store in memory -/

def Memory.rolledBack (m : Memory) (owner : String) : List Pool → Memory
  | [] => m
  | _ :: _ => (m.releaseOwner owner).unlocked

theorem Memory.rolledBack_of_ne_nil (m : Memory) (owner : String) {given : List Pool}
    (h : given ≠ []) : m.rolledBack owner given = (m.releaseOwner owner).unlocked := by
  obtain ⟨pool, given, rfl⟩ := List.exists_cons_of_ne_nil h
  rfl

theorem Memory.rolledBack_releaseOwner (m : Memory) (owner : String) (given : List Pool) :
    (m.releaseOwner owner).unlocked.rolledBack owner given = (m.releaseOwner owner).unlocked := by
  cases given with
  | nil => rfl
  | cons _ _ =>
    change ((m.releaseOwner owner).releaseOwner owner).unlocked = _
    rw [Memory.releaseOwner_releaseOwner]

theorem Pool.result_release (pool : Pool) (owner : String) (m : Memory) :
    result (pool.release Memory.store owner) m = (.ok (), (m.releaseOwner owner).unlocked) := by
  rw [Pool.release, Store.result_locked, Memory.result_lock]
  dsimp only
  rw [result_bind, Memory.result_releaseOwner]
  rfl

namespace Allocation

variable {owner : String} {m : Memory} {phase : Phase} {given pools : List Pool}
  {waiting : List Address} {pool : Pool}

theorem result_releaseEach (owner : String) (m : Memory) (given : List Pool) :
    Action.result (releaseEach Memory.store owner given) m = ((), m.rolledBack owner given) := by
  induction given generalizing m with
  | nil => rfl
  | cons pool given ih =>
    rw [result_releaseEach_cons, Pool.result_release, ih, Memory.rolledBack_releaseOwner]
    rfl

theorem result_acquireEach_of_error (hs : pool.set.Sound) {e : Error}
    (h : pool.choice m (waiting.find? pool.set.contains) = .error e) :
    Action.result (acquireEach Memory.store owner phase given waiting (pool :: pools)) m =
      (.error (.allocation pool.id e), m.unlocked.rolledBack owner given) := by
  rw [result_acquireEach_cons, Pool.result_acquire m owner hs, h]
  dsimp only
  rw [result_releaseEach]

theorem result_acquireEach_of_ok (hs : pool.set.Sound) {p : Position pool.set}
    (h : pool.choice m (waiting.find? pool.set.contains) = .ok p) {l : Lease}
    (hl : pool.lease p = .ok l) :
    Action.result (acquireEach Memory.store owner phase given waiting (pool :: pools)) m =
      match Action.result (acquireEach Memory.store owner (.allocating pool.id) (given ++ [pool])
        (waiting.eraseP pool.set.contains) pools) (m.grant owner p.address pool.id).unlocked with
      | (verdict, m) => (verdict.map (l :: ·), m) := by
  rw [result_acquireEach_cons, Pool.result_acquire m owner hs, h]
  dsimp only
  rw [hl]

end Allocation

/-! ### Sets to try a call on -/

/-- A set with two candidates, the second and the third host of a block. -/
def pairSet : RangeSet :=
  let base := 10 * 2 ^ 24
  ⟨[{ subnet := ⟨.ofNat .v4 base, 29, (by decide : 29 ≤ 32)⟩
      start? := some (.ofNat .v4 (base + 2))
      last? := some (.ofNat .v4 (base + 3))
      gateway? := some (.ofNat .v4 (base + 1)) }]⟩

/-- A set with a single candidate, the second host of a block; the first is the gateway. -/
def tightSet (block : Nat) : RangeSet :=
  let base := 10 * 2 ^ 24 + block * 2 ^ 8
  ⟨[{ subnet := ⟨.ofNat .v4 base, 30, (by decide : 30 ≤ 32)⟩
      start? := some (.ofNat .v4 (base + 1))
      last? := some (.ofNat .v4 (base + 2))
      gateway? := some (.ofNat .v4 (base + 1)) }]⟩

theorem canonicalized_tightSets : ∀ s ∈ [tightSet 0, tightSet 1], s.Canonicalized := by
  simp only [List.forall_mem_cons, List.not_mem_nil, false_implies, implies_true, and_true]
  exact ⟨⟨tightSet 0, rfl⟩, ⟨tightSet 1, rfl⟩⟩

end AddressPool
