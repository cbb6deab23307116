import AddressPool.Proofs.Allocation.Steps
import AddressPool.Proofs.Store.Faulty
import Mathlib.Tactic

/-!
# What giving up all sets leaves

Giving up all sets releases each of them, whatever becomes of the others, and tells what failed.
Over a memory whose calls may fail, one release that succeeds is enough: what is the owner's is gone,
and if none succeeds then nothing is (`Memory.Freed`).  What was last reserved stays in any case.
-/

namespace AddressPool

open Allocation Attempt

variable {σ : Type} {store : Store σ} {memory : σ → Memory} {owner : String} {pool : Pool}
  {s s' : σ}

/-! ### One release -/

theorem Step.Made.release_cases {v : Except Error Unit} {xs : List Exchange}
    (h : Step.Made store s s' (.release pool owner v xs)) :
    (∃ e, result store.lock s = (.error e, s') ∧ xs = [.lock (.error e)]) ∨
    ∃ s₁ s₂ u, result store.lock s = (.ok (), s₁) ∧
      result (store.releaseOwner owner) s₁ = (v, s₂) ∧ result store.unlock s₂ = (u, s') ∧
      xs = [.lock (.ok ()), .releaseOwner owner v, .unlock u] := by
  cases h with
  | release h =>
    rw [Pool.release, Store.result_locked, Store.recorded] at h
    dsimp only at h
    rw [Recorded.result_record] at h
    rcases hlock : result store.lock s with ⟨e | _, s₁⟩
    · rw [hlock] at h
      cases h
      exact Or.inl ⟨e, rfl, rfl⟩
    · rw [hlock] at h
      dsimp only at h
      rw [result_bind, Recorded.result_record] at h
      rcases hrelease : result (store.releaseOwner owner) s₁ with ⟨e | _, s₂⟩ <;>
      · rw [hrelease] at h
        dsimp only [result_report] at h
        rw [Recorded.result_record] at h
        cases h
        exact Or.inr ⟨s₁, s₂, _, rfl, hrelease, rfl, rfl⟩

/-- What is left of a memory after some exchanges in which an owner was given up. -/
structure Memory.Freed (owner : String) (xs : List Exchange) (m m' : Memory) : Prop where
  kept : .releaseOwner owner (.ok ()) ∉ xs → m'.owners = m.owners
  freed : .releaseOwner owner (.ok ()) ∈ xs →
    m'.owners = m.owners.filter fun _ o => o != Text.trim owner
  last : m'.last = m.last

def Exchange.failed : Exchange → Bool
  | lock v | unlock v | close v | release _ v | releaseOwner _ v => !v.isOk
  | reserve _ _ _ v => !v.isOk
  | lastReserved _ v => !v.isOk

namespace Store.FailsOver

theorem memory_lock (hstore : store.FailsOver memory Memory.store)
    (h : result store.lock s = (.ok (), s')) : memory s' = { memory s with held := true } :=
  (congrArg Prod.snd (hstore.lock.of_ok h)).symm

theorem memory_unlock (hstore : store.FailsOver memory Memory.store)
    (h : result store.unlock s = (.ok (), s')) : memory s' = (memory s).unlocked :=
  (congrArg Prod.snd (hstore.unlock.of_ok h)).symm

theorem memory_releaseOwner (hstore : store.FailsOver memory Memory.store)
    (h : result (store.releaseOwner owner) s = (.ok (), s')) :
    memory s' = (memory s).releaseOwner owner :=
  (congrArg Prod.snd ((hstore.releaseOwner owner).of_ok h)).symm

theorem kept_unlock (hstore : store.FailsOver memory Memory.store) {u : Except Error Unit}
    (h : result store.unlock s = (u, s')) :
    (memory s').owners = (memory s).owners ∧ (memory s').last = (memory s).last := by
  cases u with
  | ok _ =>
    rw [hstore.memory_unlock h]
    exact ⟨rfl, rfl⟩
  | error e =>
    rw [hstore.unlock.of_error rfl h]
    exact ⟨rfl, rfl⟩

end Store.FailsOver

theorem Step.Made.freed (hstore : store.FailsOver memory Memory.store) {v : Except Error Unit}
    {xs : List Exchange} (h : Step.Made store s s' (.release pool owner v xs)) :
    Memory.Freed owner xs (memory s) (memory s') := by
  rcases h.release_cases with ⟨e, hlock, rfl⟩ | ⟨s₁, s₂, u, hlock, hrelease, hunlock, rfl⟩
  · have hs' : memory s' = memory s := hstore.lock.of_error rfl hlock
    exact ⟨fun _ => by rw [hs'], by simp, by rw [hs']⟩
  · have hkept := hstore.kept_unlock hunlock
    cases v with
    | ok _ =>
      rw [hstore.memory_releaseOwner hrelease, hstore.memory_lock hlock] at hkept
      exact ⟨by simp, fun _ => hkept.1, hkept.2⟩
    | error e =>
      rw [(hstore.releaseOwner owner).of_error rfl hrelease, hstore.memory_lock hlock] at hkept
      exact ⟨fun _ => hkept.1, by simp, hkept.2⟩

theorem Step.Made.unlocked (hstore : store.FailsOver memory Memory.store) {v : Except Error Unit}
    {xs : List Exchange} (h : Step.Made store s s' (.release pool owner v xs))
    (hxs : ∀ x ∈ xs, x.failed = false) :
    memory s' = ((memory s).releaseOwner owner).unlocked := by
  rcases h.release_cases with ⟨e, -, rfl⟩ | ⟨s₁, s₂, u, hlock, hrelease, hunlock, rfl⟩
  · cases hxs _ (List.mem_singleton_self _)
  · rcases v with e | _
    · cases hxs (.releaseOwner owner (.error e)) (by simp)
    rcases u with e | _
    · cases hxs (.unlock (.error e)) (by simp)
    rw [hstore.memory_unlock hunlock, hstore.memory_releaseOwner hrelease,
      hstore.memory_lock hlock]
    rfl

/-! ### All sets -/

namespace Memory.Freed

variable {m m₁ m₂ : Memory} {xs ys : List Exchange}

theorem nil (owner : String) (m : Memory) : Freed owner [] m m :=
  ⟨fun _ => rfl, by simp, rfl⟩

theorem append (h : Freed owner xs m m₁) (h' : Freed owner ys m₁ m₂) :
    Freed owner (xs ++ ys) m m₂ := by
  have htwice : (m.owners.filter fun _ o => o != Text.trim owner).filter
      (fun _ o => o != Text.trim owner) = m.owners.filter fun _ o => o != Text.trim owner :=
    congrArg Memory.owners (m.releaseOwner_releaseOwner owner)
  refine ⟨fun hnone => ?_, fun hsome => ?_, h'.last.trans h.last⟩
  · rw [List.mem_append, not_or] at hnone
    rw [h'.kept hnone.2, h.kept hnone.1]
  · by_cases hxs : .releaseOwner owner (.ok ()) ∈ xs
    · by_cases hys : .releaseOwner owner (.ok ()) ∈ ys
      · rw [h'.freed hys, h.freed hxs, htwice]
      · rw [h'.kept hys, h.freed hxs]
    · have hys := (List.mem_append.mp hsome).resolve_left hxs
      rw [h'.freed hys, h.kept hxs]

end Memory.Freed

theorem Runs.freed (hstore : store.FailsOver memory Memory.store) {pools : List Pool}
    {steps : List Step} (h : Runs store s steps s')
    (hreleases : List.Forall₂ (Step.Releases owner) pools steps) :
    Memory.Freed owner (steps.flatMap Step.exchanges) (memory s) (memory s') := by
  induction h generalizing pools with
  | nil s => exact .nil owner (memory s)
  | cons hmade _ ih =>
    cases hreleases with
    | cons hstep hrest =>
      obtain ⟨v, xs, -⟩ := hstep
      rw [List.flatMap_cons]
      exact (hmade.freed hstore).append (ih hrest)

theorem Runs.rolledBack (hstore : store.FailsOver memory Memory.store) {pools : List Pool}
    {steps : List Step} (h : Runs store s steps s')
    (hreleases : List.Forall₂ (Step.Releases owner) pools steps)
    (hnone : ∀ x ∈ steps.flatMap Step.exchanges, x.failed = false) :
    memory s' = (memory s).rolledBack owner pools := by
  induction h generalizing pools with
  | nil s =>
    cases hreleases
    rfl
  | cons hmade _ ih =>
    cases hreleases with
    | @cons pool _ pools _ hstep hrest =>
      obtain ⟨v, xs, -⟩ := hstep
      rw [List.flatMap_cons, List.forall_mem_append] at hnone
      rw [ih hrest hnone.2, hmade.unlocked hstore hnone.1, Memory.rolledBack_releaseOwner]
      rfl

/-- **Giving up all sets releases each of them once, in order, and tells what failed.  Over a memory
whose calls may fail, the owner's reservations are gone if a release succeeded, and everything else
stays; where nothing failed, to do it again changes nothing.** -/
theorem releaseAll_bestEffort (store : Store σ) (sets : List RangeSet) (owner : String) (s : σ) :
    ∃ v s' steps,
      result (releaseAll store.recorded sets owner) ⟨s, []⟩ =
        (v, ⟨s', steps.flatMap Step.exchanges⟩) ∧
      Runs store s steps s' ∧ List.Forall₂ (Step.Releases owner) (pools sets) steps ∧
      v = told ((steps.flatMap Step.exchanges).filterMap Exchange.failure?) ∧
      ∀ memory : σ → Memory, store.FailsOver memory Memory.store →
        Memory.Freed owner (steps.flatMap Step.exchanges) (memory s) (memory s') ∧
        (sets ≠ [] → (∀ x ∈ steps.flatMap Step.exchanges, x.failed = false) →
          ∀ sets' v' s'' xs,
            result (releaseAll store.recorded sets' owner) ⟨s', []⟩ = (v', ⟨s'', xs⟩) →
            (∀ x ∈ xs, x.failed = false) → memory s'' = memory s') := by
  obtain ⟨s', steps, hruns, hreleases, hrun⟩ := releaseAll_runs store sets owner s
  refine ⟨_, s', steps, hrun, hruns, hreleases, rfl, fun memory hstore =>
    ⟨hruns.freed hstore hreleases, ?_⟩⟩
  intro hsets hnone sets' v' s'' xs hagain hxs
  obtain ⟨t, steps', hruns', hreleases', hrun'⟩ := releaseAll_runs store sets' owner s'
  cases hagain.symm.trans hrun'
  rw [hruns'.rolledBack hstore hreleases' hxs, hruns.rolledBack hstore hreleases hnone]
  have hpools : pools sets ≠ [] := by simpa [pools] using hsets
  rw [Memory.rolledBack_of_ne_nil (memory s) owner hpools, Memory.rolledBack_releaseOwner]

/-- A memory that fails when it is first locked and when it is first asked to release an owner. -/
def halting : Store (Counted Memory) :=
  Store.faulty (fun op number => (op = .lock || op = .releaseOwner) && number == 1) Memory.store

theorem releaseAll_bestEffort_halting : ∃ s₁ xs v₂ s₂ ys v₃ s₃ zs,
    result (releaseAll halting.recorded [tightSet 0, tightSet 1, tightSet 0] "dummy")
      ⟨⟨fullMemory, {}⟩, []⟩ =
        (.error (.release ["injected lock 1: fault", "injected release_by_id 1: fault"]),
          ⟨s₁, xs⟩) ∧
    Memory.Freed "dummy" xs fullMemory s₁.inner ∧
    s₁.inner.owners["10.0.5.5"]? = none ∧ s₁.inner.owners["10.0.1.2"]? = some "other" ∧
    result (releaseAll halting.recorded [tightSet 0] "dummy") ⟨s₁, []⟩ = (v₂, ⟨s₂, ys⟩) ∧
    result (releaseAll halting.recorded [tightSet 1] "dummy") ⟨s₂, []⟩ = (v₃, ⟨s₃, zs⟩) ∧
    s₃.inner = s₂.inner := by
  have hruns :
      let once := (result (releaseAll halting.recorded [tightSet 0, tightSet 1, tightSet 0] "dummy")
        ⟨⟨fullMemory, {}⟩, []⟩).2
      let twice := (result (releaseAll halting.recorded [tightSet 0] "dummy") ⟨once.inner, []⟩).2
      (once.exchanges.filterMap Exchange.failure?).map Error.message =
          ["injected lock 1: fault", "injected release_by_id 1: fault"] ∧
        once.inner.inner.owners["10.0.5.5"]? = none ∧
        once.inner.inner.owners["10.0.1.2"]? = some "other" ∧
        (∀ x ∈ twice.exchanges, x.failed = false) ∧ ∀ x ∈
          (result (releaseAll halting.recorded [tightSet 1] "dummy") ⟨twice.inner, []⟩).2.exchanges,
            x.failed = false := by
    decide +kernel
  obtain ⟨v₁, s₁, steps, hrun, -, -, htold, hfirst⟩ :=
    releaseAll_bestEffort halting [tightSet 0, tightSet 1, tightSet 0] "dummy" ⟨fullMemory, {}⟩
  obtain ⟨v₂, s₂, steps', hrun', -, -, -, hsecond⟩ :=
    releaseAll_bestEffort halting [tightSet 0] "dummy" s₁
  rcases hagain : result (releaseAll halting.recorded [tightSet 1] "dummy") ⟨s₂, []⟩ with
    ⟨v₃, s₃, zs⟩
  dsimp only at hruns
  rw [hrun] at hruns
  dsimp only at hruns
  rw [hrun'] at hruns
  dsimp only at hruns
  rw [hagain] at hruns
  obtain ⟨hfailed, hfreed, hkept, hquiet, hquiet'⟩ := hruns
  refine ⟨s₁, _, v₂, s₂, _, v₃, s₃, zs, ?_, (hfirst Counted.inner (Store.failsOver_faulty _ _)).1,
    hfreed, hkept, hrun', hagain, ?_⟩
  · rw [hrun, htold]
    cases hcauses : (steps.flatMap Step.exchanges).filterMap Exchange.failure? with
    | nil =>
      rw [hcauses] at hfailed
      cases hfailed
    | cons e es =>
      rw [hcauses] at hfailed
      rw [told, hfailed]
      exact List.cons_ne_nil e es
  · exact (hsecond Counted.inner (Store.failsOver_faulty _ _)).2 (by simp) hquiet _ _ _ _ hagain
      hquiet'

end AddressPool
