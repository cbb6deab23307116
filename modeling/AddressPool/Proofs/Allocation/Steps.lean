import AddressPool.Proofs.Allocation.Granted
import AddressPool.Proofs.Store.Exchanges
import Mathlib.Tactic

/-!
# The steps of a call

A call that goes through the sets of a network makes its steps one after the other: a set is asked
for an address, or it is released (`Step`).  `Runs` ties each step to what it comes to on a store,
from the state that the step before it has left, and to what it asks of the store.

A set that is asked for an address asks the store for nothing outside its lock
(`Pool.asks_acquire`), and one that is released asks for that alone (`Pool.asks_release`).  To give
up all sets is to release each of them in order, whatever comes of it (`releaseFailures_runs`).
-/

namespace AddressPool

open Allocation Attempt

variable {σ : Type} {store : Store σ} {owner : String} {pool : Pool} {s s' : σ}

/-! ### One step -/

/-- One set is asked for an address, or released, with what came of it and what the store was asked
for it. -/
inductive Step where
  | acquire (pool : Pool) (owner : String) (requested : Option Address)
      (verdict : Except Error Lease) (exchanges : List Exchange)
  | release (pool : Pool) (owner : String) (verdict : Except Error Unit)
      (exchanges : List Exchange)

namespace Step

def exchanges : Step → List Exchange
  | acquire _ _ _ _ exchanges | release _ _ _ exchanges => exchanges

def lease? : Step → Option Lease
  | acquire _ _ _ (.ok l) _ => some l
  | acquire _ _ _ (.error _) _ | release .. => none

/-- A step is what it comes to on a store. -/
inductive Made (store : Store σ) (s s' : σ) : Step → Prop
  | acquire {pool : Pool} {owner : String} {requested : Option Address} {v : Except Error Lease}
      {xs : List Exchange} :
      result (pool.acquire store.recorded owner requested) ⟨s, []⟩ = (v, ⟨s', xs⟩) →
      Made store s s' (.acquire pool owner requested v xs)
  | release {pool : Pool} {owner : String} {v : Except Error Unit} {xs : List Exchange} :
      result (pool.release store.recorded owner) ⟨s, []⟩ = (v, ⟨s', xs⟩) →
      Made store s s' (.release pool owner v xs)

end Step

/-- Steps are made on a store one after the other. -/
inductive Runs (store : Store σ) : σ → List Step → σ → Prop
  | nil (s : σ) : Runs store s [] s
  | cons {s s₁ s₂ : σ} {step : Step} {steps : List Step} :
      step.Made store s s₁ → Runs store s₁ steps s₂ → Runs store s (step :: steps) s₂

theorem Runs.made_of_mem {steps : List Step} (h : Runs store s steps s') {step : Step}
    (hmem : step ∈ steps) : ∃ s₁ s₂, step.Made store s₁ s₂ := by
  induction h with
  | nil => cases hmem
  | cons hmade _ ih =>
    rcases List.mem_cons.mp hmem with rfl | hmem
    · exact ⟨_, _, hmade⟩
    · exact ih hmem

/-! ### One set is asked -/

namespace Pool

theorem needsLock_reserve (store : Store σ) (owner : String) (a : Address) (setId : Nat) :
    (store.recorded.reserve owner a setId).NeedsLock := by
  refine Action.Asks.mono (Attempt.Asks.record (.reserve owner a setId) _) ?_
  rintro v xs rfl
  exact List.forall_mem_singleton.mpr rfl

theorem needsLock_walk (store : Store σ) (pool : Pool) :
    Attempt.NeedsLock (ExceptT.lift (pool.walk store.recorded)) := by
  intro s
  refine ⟨.ok (Walk.after pool.set (result (store.lastReserved pool.id) s).1.toOption),
    (result (store.lastReserved pool.id) s).2,
    [.lastReserved pool.id (result (store.lastReserved pool.id) s).1],
    List.forall_mem_singleton.mpr rfl, fun before => ?_⟩
  rw [result_verdict, result_lift, result_walk]
  rfl

theorem needsLock_reserveFirst (store : Store σ) (pool : Pool) (owner : String) (most : Nat)
    (w : Walk pool.set) (log : Log) :
    Attempt.NeedsLock
      (.ofVerdict fun r => pool.reserveFirst store.recorded owner most w r log) := by
  induction most generalizing w log with
  | zero => exact .ofExcept (.ok none)
  | succ most ih =>
    intro s
    rcases hnext : w.next with ⟨_ | p, w'⟩
    · refine ⟨.ok none, s, [], by simp, fun before => ?_⟩
      rw [result_verdict, result_ofVerdict_apply, List.append_nil, reserveFirst, hnext]
    · rcases hreserve : (store.reserve owner p.address pool.id).verdict s with ⟨v, s₁, log₁⟩
      have hrecorded (before : List Exchange) :
          (store.recorded.reserve owner p.address pool.id).verdict ⟨s, before⟩ =
            ⟨v, ⟨s₁, before ++ [.reserve owner p.address pool.id v]⟩, log₁⟩ := by
        change Outcome.mk _ _ _ = _
        rw [hreserve]
      have hone : ∀ x ∈ [Exchange.reserve owner p.address pool.id v], x.underLock = true :=
        List.forall_mem_singleton.mpr rfl
      rcases v with e | _ | _
      · refine ⟨.error e, s₁, _, hone, fun before => ?_⟩
        simp only [result_verdict, result_ofVerdict_apply, reserveFirst, hnext, hrecorded]
      · obtain ⟨v, s₂, xs, hxs, hrest⟩ :=
          ih w' (log.push ⟨.debug, s!"Trying {p.address} for {owner}"⟩ ++ log₁) s₁
        refine ⟨v, s₂, _ ++ xs, List.forall_mem_append.mpr ⟨hone, hxs⟩, fun before => ?_⟩
        rw [← List.append_assoc, ← hrest]
        simp only [result_verdict, result_ofVerdict_apply, reserveFirst, hnext, hrecorded]
      · refine ⟨.ok (some p), s₁, _, hone, fun before => ?_⟩
        simp only [result_verdict, result_ofVerdict_apply, reserveFirst, hnext, hrecorded]

theorem needsLock_reserveFor (store : Store σ) (pool : Pool) (owner : String)
    (requested : Option Address) : (pool.reserveFor store.recorded owner requested).NeedsLock := by
  cases requested with
  | none =>
    refine (needsLock_walk store pool).bind fun w => ?_
    refine (needsLock_reserveFirst store pool owner _ w #[]).bind fun found? => ?_
    cases found? with
    | none => exact .ofExcept (.error (.exhausted pool.set.text))
    | some p => exact .ofExcept (.ok p)
  | some a =>
    refine (NeedsLock.ofExcept (pool.set.lookup a.canonical)).bind fun i => ?_
    dsimp only
    split_ifs
    · exact .ofExcept (.error (.requestedGateway a.canonical))
    · refine (needsLock_reserve store owner a.canonical pool.id).bind fun won => ?_
      cases won with
      | true => exact .ofExcept (.ok _)
      | false => exact .ofExcept (.error (.requestedTaken a.canonical pool.set.text))

/-- **A set that is asked for an address asks the store for nothing outside the lock.** -/
theorem asks_acquire (store : Store σ) (pool : Pool) (owner : String)
    (requested : Option Address) :
    (pool.acquire store.recorded owner requested).Asks
      (Guarded fun _ xs => ∀ x ∈ xs, x.underLock = true) := by
  rw [acquire_eq]
  refine store.asks_locked ((needsLock_reserveFor store pool owner requested).bind fun p => ?_)
  exact NeedsLock.bind (.report (by simp)) fun _ => .ofExcept (pool.lease p)

end Pool

/-! ### Releases -/

theorem Pool.asks_release (store : Store σ) (pool : Pool) (owner : String) :
    (pool.release store.recorded owner).Asks
      (Guarded fun v xs => xs = [.releaseOwner owner v]) := by
  have hrelease : (store.recorded.releaseOwner owner).Asks
      fun v xs => xs = [.releaseOwner owner v] :=
    .record (.releaseOwner owner) (store.releaseOwner owner)
  refine store.asks_locked ((hrelease.bind fun _ =>
    .report (P := fun v xs => v = .ok () ∧ xs = []) ⟨rfl, rfl⟩).mono ?_)
  rintro v xs (⟨e, rfl, rfl⟩ | ⟨_, xs, ys, rfl, rfl, rfl, rfl⟩)
  · rfl
  · rfl

/-- A step that releases a set asks for the lock, then for the owner to be released, and gives the
lock back; without the lock it asks for nothing. -/
inductive Step.Releases (owner : String) (pool : Pool) : Step → Prop
  | intro (v : Except Error Unit) (xs : List Exchange) :
      Guarded (fun v xs => xs = [.releaseOwner owner v]) v xs →
      Releases owner pool (.release pool owner v xs)

theorem Pool.releases (store : Store σ) (pool : Pool) (owner : String) (s : σ) :
    ∃ v s' xs, Step.Made store s s' (.release pool owner v xs) ∧
      Step.Releases owner pool (.release pool owner v xs) ∧
      ∀ before, result (pool.release store.recorded owner) ⟨s, before⟩ =
        (v, ⟨s', before ++ xs⟩) := by
  obtain ⟨v, s', xs, hguarded, hrun⟩ := pool.asks_release store owner s
  exact ⟨v, s', xs, .release (hrun []), .intro v xs hguarded, hrun⟩

/-- Why a release fails: the lock was refused, or the release itself. -/
def Exchange.failure? : Exchange → Option Error
  | lock (.error e) => some e
  | releaseOwner _ (.error e) => some e
  | lock (.ok _) | unlock _ | close _ | reserve .. | lastReserved .. | release ..
  | releaseOwner _ (.ok _) => none

theorem failures_of_guarded {v : Except Error Unit} {xs : List Exchange}
    (h : Guarded (fun v xs => xs = [.releaseOwner owner v]) v xs) :
    xs.filterMap Exchange.failure? = match v with
      | .ok _ => []
      | .error e => [e] := by
  cases h with
  | refused e => rfl
  | admitted v xs u hxs =>
    subst hxs
    cases v <;> rfl

namespace Allocation

/-- **Giving up all sets releases each of them in order, and tells what failed.** -/
theorem releaseFailures_runs (store : Store σ) (owner : String) (pools : List Pool) (s : σ) :
    ∃ s' steps, Runs store s steps s' ∧ List.Forall₂ (Step.Releases owner) pools steps ∧
      ∀ before, Action.result (releaseFailures store.recorded owner pools) ⟨s, before⟩ =
        (((steps.flatMap Step.exchanges).filterMap Exchange.failure?).map Error.message,
          ⟨s', before ++ steps.flatMap Step.exchanges⟩) := by
  induction pools generalizing s with
  | nil =>
    refine ⟨s, [], .nil s, .nil, fun before => ?_⟩
    rw [List.flatMap_nil, List.append_nil]
    rfl
  | cons pool pools ih =>
    obtain ⟨v, s₁, xs, hmade, hreleases, hrun⟩ := pool.releases store owner s
    obtain ⟨s', steps, hruns, hall, hrest⟩ := ih s₁
    refine ⟨s', _ :: steps, .cons hmade hruns, .cons hreleases hall, fun before => ?_⟩
    have hfailures := hreleases
    obtain ⟨_, _, hguarded⟩ := hfailures
    rw [result_releaseFailures_cons, hrun, List.flatMap_cons, List.filterMap_append,
      List.map_append, Step.exchanges, failures_of_guarded hguarded, ← List.append_assoc]
    cases v <;> simp only [hrest] <;> rfl

theorem result_releaseEach_eq (store : Store σ) (owner : String) (pools : List Pool) (s : σ) :
    Action.result (releaseEach store owner pools) s =
      ((), (Action.result (releaseFailures store owner pools) s).2) := by
  induction pools generalizing s with
  | nil => rfl
  | cons pool pools ih =>
    rw [result_releaseEach_cons, result_releaseFailures_cons, ih]
    rcases result (pool.release store owner) s with ⟨_ | _, _⟩ <;> rfl

/-- What is told when all sets were given up, by what failed. -/
def told : List Error → Except Error Unit
  | [] => .ok ()
  | es => .error (.release (es.map Error.message))

theorem releaseAll_runs (store : Store σ) (sets : List RangeSet) (owner : String) (s : σ) :
    ∃ s' steps, Runs store s steps s' ∧ List.Forall₂ (Step.Releases owner) (pools sets) steps ∧
      result (releaseAll store.recorded sets owner) ⟨s, []⟩ =
        (told ((steps.flatMap Step.exchanges).filterMap Exchange.failure?),
          ⟨s', steps.flatMap Step.exchanges⟩) := by
  obtain ⟨s', steps, hruns, hreleases, hrun⟩ := releaseFailures_runs store owner (pools sets) s
  refine ⟨s', steps, hruns, hreleases, ?_⟩
  rw [releaseAll, result_ofVerdict, Action.result_bind, hrun, List.nil_append]
  cases (steps.flatMap Step.exchanges).filterMap Exchange.failure? <;> rfl

end Allocation

end AddressPool
