import AddressPool.Proofs.Allocation.Denied
import AddressPool.Proofs.Allocation.Undone
import AddressPool.Proofs.Walk.Rotation
import Mathlib.Tactic

/-!
# Why a call for addresses fails

Whatever the store does, a set that is asked gives no address for one of two reasons
(`Pool.Stopped`): the store has failed to give the lock or to answer whether an address can be had,
or it has answered every time, and the set denies what it is asked for.  A store that does not know
the address reserved last, or fails to take its lock back, does not stop a set.

A call for addresses of all sets fails because one of them is stopped, or because requests are left
that no set was asked for (`allocateAll_fails`).
-/

namespace AddressPool

open Allocation Attempt

variable {σ : Type} {store : Store σ} {owner : String} {pool : Pool}

/-! ### Candidates are tried -/

/-- The error of a store that does not give the lock, or does not tell whether an address can be
had. -/
def Exchange.obstacle? : Exchange → Option Error
  | lock (.error e) | reserve _ _ _ (.error e) => some e
  | lock (.ok _) | reserve _ _ _ (.ok _) | unlock _ | close _ | lastReserved .. | release ..
  | releaseOwner .. => none

def Exchange.tried? : Exchange → Option Address
  | reserve _ a _ _ => some a
  | lock _ | unlock _ | close _ | lastReserved .. | release .. | releaseOwner .. => none

namespace Pool

/-- What a store is asked when candidates are tried one after the other, and what comes of it. -/
inductive Tries (pool : Pool) (owner : String) :
    List (Position pool.set) → Except Error (Option (Position pool.set)) → List Exchange → Prop
  | out : Tries pool owner [] (.ok none) []
  | failed (p : Position pool.set) (ps : List (Position pool.set)) (e : Error) :
      Tries pool owner (p :: ps) (.error e) [.reserve owner p.address pool.id (.error e)]
  | won (p : Position pool.set) (ps : List (Position pool.set)) :
      Tries pool owner (p :: ps) (.ok (some p)) [.reserve owner p.address pool.id (.ok true)]
  | refused {p : Position pool.set} {ps : List (Position pool.set)}
      {v : Except Error (Option (Position pool.set))} {xs : List Exchange} :
      Tries pool owner ps v xs →
      Tries pool owner (p :: ps) v (.reserve owner p.address pool.id (.ok false) :: xs)

theorem asks_reserveAmong (store : Store σ) (pool : Pool) (owner : String)
    (ps : List (Position pool.set)) :
    (pool.reserveAmong store.recorded owner ps).Asks (pool.Tries owner ps) := by
  induction ps with
  | nil => exact .ofExcept (v := .ok none) .out
  | cons p ps ih =>
    have hreserve : (store.recorded.reserve owner p.address pool.id).Asks
        fun v xs => xs = [.reserve owner p.address pool.id v] := .record _ _
    have hgoOn (won : Bool) : Attempt.Asks
        (if won then return some p else pool.reserveAmong store.recorded owner ps)
        fun v xs => if won then v = .ok (some p) ∧ xs = [] else pool.Tries owner ps v xs := by
      cases won with
      | true => exact .ofExcept (v := .ok (some p)) ⟨rfl, rfl⟩
      | false => exact ih
    refine (hreserve.bind hgoOn).mono ?_
    rintro v _ (⟨e, rfl, rfl⟩ | ⟨_ | _, _, ys, rfl, rfl, hys⟩)
    · exact .failed p ps e
    · exact .refused hys
    · obtain ⟨rfl, rfl⟩ := hys
      exact .won p ps

namespace Tries

variable {ps : List (Position pool.set)} {xs : List Exchange}

theorem eq_map_of_none (h : pool.Tries owner ps (.ok none) xs) :
    xs = ps.map fun p => .reserve owner p.address pool.id (.ok false) := by
  generalize hv : (Except.ok none : Except Error (Option (Position pool.set))) = v at h
  induction h with
  | out => rfl
  | failed | won => cases hv
  | refused _ ih => rw [List.map_cons, ← ih hv]

theorem obstacles_of_error {e : Error} (h : pool.Tries owner ps (.error e) xs) :
    xs.filterMap Exchange.obstacle? = [e] := by
  generalize hv : (Except.error e : Except Error (Option (Position pool.set))) = v at h
  induction h with
  | out | won => cases hv
  | failed => cases hv; rfl
  | refused _ ih => exact ih hv

end Tries

/-! ### One set is stopped -/

/-- Why a set gives no address, by what the store was asked for it: it has failed to give the lock
or to tell whether an address can be had; or it has not, it was asked for no address twice, and the
set denies the request by what was refused. -/
inductive Stopped (pool : Pool) (owner : String) (requested : Option Address) (cause : Error)
    (xs : List Exchange) : Prop
  | obstacle : xs.filterMap Exchange.obstacle? = [cause] → Stopped pool owner requested cause xs
  | denial : xs.filterMap Exchange.obstacle? = [] → (xs.filterMap Exchange.tried?).Nodup →
      pool.Denies (fun a => .reserve owner a pool.id (.ok false) ∈ xs) requested cause →
      Stopped pool owner requested cause xs

theorem Stopped.of_subset {requested : Option Address} {cause : Error} {xs ys : List Exchange}
    (h : pool.Stopped owner requested cause xs) (hsubset : xs ⊆ ys)
    (hobstacles : ys.filterMap Exchange.obstacle? = xs.filterMap Exchange.obstacle?)
    (htried : ys.filterMap Exchange.tried? = xs.filterMap Exchange.tried?) :
    pool.Stopped owner requested cause ys := by
  cases h with
  | obstacle hxs => exact .obstacle (hobstacles.trans hxs)
  | denial hxs hnodup hdenies =>
    exact .denial (hobstacles.trans hxs) (htried ▸ hnodup) (hdenies.mono fun a ha => hsubset ha)

theorem stopped_of_tries (hs : pool.set.Sound) {a? : Option Address} {xs : List Exchange}
    (h : pool.Tries owner (pool.set.candidatesAfter a?) (.ok none) xs) :
    pool.Stopped owner none (.exhausted pool.set.text) xs := by
  obtain rfl := h.eq_map_of_none
  refine .denial ?_ ?_ (.exhausted fun r hr a hspans hgateway => ?_)
  · rw [List.filterMap_map, List.filterMap_eq_nil_iff]
    exact fun _ _ => rfl
  · rw [List.filterMap_map]
    have haddresses := hs.addresses_candidatesAfter_nodup a?
    rwa [← List.filterMap_eq_map] at haddresses
  · obtain ⟨p, hp, rfl⟩ := hs.exists_mem_candidatesAfter a? hr hspans hgateway
    exact List.mem_map_of_mem hp

/-! ### One set is asked -/

theorem asks_reserveNext (store : Store σ) (hs : pool.set.Sound) (owner : String) :
    (pool.reserveNext store.recorded owner).Asks
      fun v xs => ∀ e, v = .error e → pool.Stopped owner none e xs := by
  intro s
  rcases hlast : result (store.lastReserved pool.id) s with ⟨last, s₁⟩
  obtain ⟨v, s₂, xs, htries, hrun⟩ :=
    asks_reserveAmong store pool owner (pool.set.candidatesAfter last.toOption) s₁
  have hnext (before : List Exchange) :
      result (pool.reserveNext store.recorded owner) ⟨s, before⟩ =
        match (v, (⟨s₂, before ++ .lastReserved pool.id last :: xs⟩ : Recorded σ)) with
        | (.ok (some p), r) => (.ok p, r)
        | (.ok none, r) => (.error (.exhausted pool.set.text), r)
        | (.error e, r) => (.error e, r) := by
    have hrecorded : result (store.recorded.lastReserved pool.id) ⟨s, before⟩ =
        (last, ⟨s₁, before ++ [.lastReserved pool.id last]⟩) := by
      rw [Store.recorded, Recorded.result_record, hlast]
    rw [result_reserveNext hs, hrecorded]
    dsimp only
    rw [← result_verdict, hrun, List.append_assoc, List.singleton_append]
    rcases v with _ | _ | _ <;> rfl
  -- that the address reserved last was asked for stops nobody
  have hasked {e : Error} (h : pool.Stopped owner none e xs) :
      pool.Stopped owner none e (.lastReserved pool.id last :: xs) :=
    h.of_subset (List.subset_cons_self _ _) rfl rfl
  rcases v with e | _ | p
  · refine ⟨.error e, s₂, _, fun e' he => ?_, hnext⟩
    cases he
    exact hasked (.obstacle htries.obstacles_of_error)
  · refine ⟨.error (.exhausted pool.set.text), s₂, _, fun e' he => ?_, hnext⟩
    cases he
    exact hasked (stopped_of_tries hs htries)
  · refine ⟨.ok p, s₂, _, fun e' he => ?_, hnext⟩
    cases he

theorem asks_reserveRequested (store : Store σ) (owner : String) {a : Address}
    (hcontains : pool.set.contains a = true) :
    (pool.reserveRequested store.recorded owner a.canonical).Asks
      fun v xs => ∀ e, v = .error e → pool.Stopped owner (some a) e xs := by
  obtain ⟨i, hfind⟩ := Option.isSome_iff_exists.mp hcontains
  have hlookup : pool.set.lookup a.canonical = .ok i := by
    rw [RangeSet.lookup_eq_ok_iff, pool.set.find?_canonical, hfind]
  intro s
  by_cases hgateway : a.canonical = (pool.set.member i).gateway
  · refine ⟨.error (.requestedGateway a.canonical), s, [], fun e he => ?_, fun before => ?_⟩
    · cases he
      exact .denial rfl List.nodup_nil (.gateway hfind hgateway)
    · rw [result_verdict, result_reserveRequested, hlookup, List.append_nil]
      exact if_pos (beq_iff_eq.mpr hgateway)
  · rcases hreserve : result (store.reserve owner a.canonical pool.id) s with ⟨v, s₁⟩
    have hrequested (before : List Exchange) :
        result (pool.reserveRequested store.recorded owner a.canonical) ⟨s, before⟩ =
          match (v, (⟨s₁, before ++ [.reserve owner a.canonical pool.id v]⟩ : Recorded σ)) with
          | (.ok true, r) => (.ok ⟨i, a.canonical⟩, r)
          | (.ok false, r) => (.error (.requestedTaken a.canonical pool.set.text), r)
          | (.error e, r) => (.error e, r) := by
      have hrecorded : result (store.recorded.reserve owner a.canonical pool.id) ⟨s, before⟩ =
          (v, ⟨s₁, before ++ [.reserve owner a.canonical pool.id v]⟩) := by
        rw [Store.recorded, Recorded.result_record, hreserve]
      have hplain : ¬ (Position.isGateway ⟨i, a.canonical⟩ = true) :=
        fun h => hgateway (beq_iff_eq.mp h)
      rw [result_reserveRequested, hlookup]
      dsimp only
      rw [if_neg hplain, hrecorded]
      rcases v with _ | _ | _ <;> rfl
    rcases v with e | _ | _
    · refine ⟨.error e, s₁, _, fun e' he => ?_, hrequested⟩
      cases he
      exact .obstacle rfl
    · refine ⟨.error (.requestedTaken a.canonical pool.set.text), s₁, _, fun e' he => ?_,
        hrequested⟩
      cases he
      exact .denial rfl (List.nodup_singleton _)
        (.request hfind hgateway (List.mem_singleton_self _))
    · refine ⟨.ok ⟨i, a.canonical⟩, s₁, _, fun e' he => ?_, hrequested⟩
      cases he

/-- **Whatever the store does, a set that gives none of what is asked of it is stopped.** -/
theorem asks_acquire_stopped (store : Store σ) (hs : pool.set.Sound) (owner : String)
    {requested : Option Address} (hcontains : ∀ a, requested = some a → pool.set.contains a = true) :
    (pool.acquire store.recorded owner requested).Asks
      fun v xs => ∀ e, v = .error e → pool.Stopped owner requested e xs := by
  have hreserve : (pool.reserveFor store.recorded owner requested).Asks
      fun v xs => ∀ e, v = .error e → pool.Stopped owner requested e xs := by
    cases requested with
    | none => exact asks_reserveNext store hs owner
    | some a => exact asks_reserveRequested store owner (hcontains a rfl)
  have hreserved := hreserve.and_result (Q := fun v => ∀ p, v = .ok p → p.Spanned) <| by
    rintro r _ r' hrun p rfl
    exact spanned_of_reserveFor hs hrun
  have hlease (p : Position pool.set) : Attempt.Asks
      (do Attempt.report .info s!"Allocated {p.address} to {owner} from range set {pool.id}"
          Attempt.ofExcept (pool.lease p) : Attempt (Recorded σ) Lease)
      fun v xs => v = pool.lease p ∧ xs = [] := by
    intro s
    exact ⟨pool.lease p, s, [], ⟨rfl, rfl⟩, fun before => by rw [List.append_nil]; rfl⟩
  rw [acquire_eq]
  refine (store.asks_locked (hreserved.bind hlease)).mono ?_
  rintro v _ (e | ⟨v, xs, u, hxs⟩) e' he
  · cases he
    exact .obstacle rfl
  · have hstopped : pool.Stopped owner requested e' xs := by
      rcases hxs with ⟨e, rfl, -, hstopped⟩ | ⟨p, xs, ys, rfl, ⟨hspanned, -⟩, rfl, rfl⟩
      · cases he
        exact hstopped e' rfl
      · -- the lease of what was reserved can always be made out
        obtain ⟨l, hl, -⟩ := lease_of_spanned hs (hspanned p rfl)
        cases hl.symm.trans he
    have hsubset : xs ⊆ Exchange.lock (.ok ()) :: (xs ++ [.unlock u]) :=
      List.subset_cons_of_subset _ (List.subset_append_left _ _)
    refine hstopped.of_subset hsubset ?_ ?_
    · simp [List.filterMap_cons, Exchange.obstacle?]
    · simp [List.filterMap_cons, Exchange.tried?]

end Pool

/-! ### All sets -/

/-- How a call for addresses of all sets fails, by the steps that it makes: requests are left that
no set was asked for, or a set is stopped that was asked for the first request that is left and in
it, or for an address of its choice if there is none. -/
inductive Fails (owner : String) (sets : List RangeSet) (waiting : List Address) :
    Error → List Step → Prop
  | unmatched (steps : List Step) : unclaimed (pools sets) waiting ≠ [] →
      Fails owner sets waiting (.unmatched (unclaimed (pools sets) waiting)) steps
  | stopped {k : Nat} {set : RangeSet} {requested : Option Address} {cause : Error}
      {xs : List Exchange} (asked undone : List Step) : sets[k]? = some set →
      (demands (pools sets) waiting)[k]? = some (⟨set, k⟩, requested) →
      Pool.Stopped ⟨set, k⟩ owner requested cause xs →
      Fails owner sets waiting (.allocation k cause)
        (asked ++ .acquire ⟨set, k⟩ owner requested (.error cause) xs :: undone)

/-- **Whatever the store does, a call for addresses fails because requests are left, or because a
set is stopped; that the address reserved last is not known, that a lock is not taken back, or that
a set is not released never becomes the error.** -/
theorem allocateAll_fails {sets : List RangeSet} (hsets : ∀ set ∈ sets, set.Canonicalized)
    {requested : List Address} {s s' : σ} {e : Error}
    (h : result (allocateAll store sets owner requested) s = (.error e, s')) :
    ∃ steps, Runs store s steps s' ∧
      result (allocateAll store.recorded sets owner requested) ⟨s, []⟩ =
        (.error e, ⟨s', steps.flatMap Step.exchanges⟩) ∧
      Fails owner sets (requested.map Address.canonical).eraseDups e steps := by
  obtain ⟨v, s₁, steps, hruns, hrun, hcomes⟩ := allocateAll_comesTo store sets owner requested s
  have hrecorded := result_allocateAll_recorded store sets owner requested ⟨s, []⟩
  rw [h, hrun] at hrecorded
  cases hrecorded
  refine ⟨steps, hruns, hrun, ?_⟩
  generalize hv : (Except.error e : Except Error (List Lease)) = v at hcomes
  cases hcomes with
  | granted => cases hv
  | unmatched asked undone _ _ hleft =>
    cases hv
    exact .unmatched _ hleft
  | refused k pool wanted cause xs asked undone _ hk _ =>
    cases hv
    obtain ⟨hpool, hcontains⟩ := getElem?_demands hk
    rw [getElem?_pools, Option.map_eq_some_iff] at hpool
    obtain ⟨set, hset, rfl⟩ := hpool
    obtain ⟨s₁, s₂, hmade⟩ := hruns.made_of_mem (List.mem_append_right _ List.mem_cons_self)
    cases hmade with
    | acquire hmade =>
      have hsound := (hsets set (List.mem_of_getElem? hset)).sound
      rw [List.length_nil, Nat.zero_add]
      exact .stopped asked undone hset hk
        ((Pool.asks_acquire_stopped store hsound owner hcontains).of_result hmade _ rfl)

/-- A store that has something to give for the first set only, and fails in everything that nobody
depends on. -/
def Store.grudging : Store Unit where
  lock := pure ()
  unlock := throw (.storage "failed to unlock" "no lock")
  close := pure ()
  reserve _ _ setId := pure (setId == 0)
  lastReserved _ := throw (.badAddress "10.0.0")
  release _ := pure ()
  releaseOwner _ := throw (.storage "failed to release" "no owner")

theorem allocateAll_fails_grudging : ∃ steps,
    (∀ set ∈ [tightSet 0, tightSet 1], set.Canonicalized) ∧
      result (allocateAll Store.grudging [tightSet 0, tightSet 1] "dummy" []) () =
        (.error (.allocation 1 (.exhausted (tightSet 1).text)), ()) ∧
      Runs Store.grudging () steps () ∧
      Fails "dummy" [tightSet 0, tightSet 1] [] (.allocation 1 (.exhausted (tightSet 1).text))
        steps := by
  have hrun : result (allocateAll Store.grudging [tightSet 0, tightSet 1] "dummy" []) () =
      (.error (.allocation 1 (.exhausted (tightSet 1).text)), ()) := rfl
  obtain ⟨steps, hruns, -, hfails⟩ := allocateAll_fails canonicalized_tightSets hrun
  exact ⟨steps, canonicalized_tightSets, hrun, hruns, hfails⟩

end AddressPool
