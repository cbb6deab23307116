import AddressPool.Proofs.Allocation.Steps
import Mathlib.Tactic

/-!
# How a call for addresses ends

On any store, a call for addresses asks its sets in order, each for the first request that is left
and in it (`demands`).  The first set that gives none ends the call, and so do requests that no set
was asked for (`unclaimed`); then each of the sets that gave is released in order, and neither the
error nor the releases that are still to come depend on what becomes of a release
(`allocateAll_comesTo`).
-/

namespace AddressPool

open Allocation Attempt

variable {σ : Type} {owner : String} {pool : Pool}

namespace Allocation

/-! ### Requests -/

/-- What each set is asked for, one after the other: the first request that is left and in it. -/
def demands : List Pool → List Address → List (Pool × Option Address)
  | [], _ => []
  | pool :: pools, waiting =>
    (pool, waiting.find? pool.set.contains) :: demands pools (waiting.eraseP pool.set.contains)

theorem getElem?_demands {pools : List Pool} {waiting : List Address} {k : Nat}
    {requested : Option Address} (h : (demands pools waiting)[k]? = some (pool, requested)) :
    pools[k]? = some pool ∧ ∀ a, requested = some a → pool.set.contains a = true := by
  induction pools generalizing waiting k with
  | nil => cases h
  | cons first pools ih =>
    cases k with
    | zero =>
      obtain ⟨rfl, rfl⟩ := Prod.mk.inj (Option.some.inj h)
      exact ⟨rfl, fun a ha => List.find?_some ha⟩
    | succ k => exact ih h

def unclaimed (pools : List Pool) (waiting : List Address) : List Address :=
  waiting.filter fun a => some a ∉ (demands pools waiting).map Prod.snd

theorem eraseP_eq_filter {waiting : List Address} (hw : waiting.Nodup) {p : Address → Bool}
    {a : Address} (h : waiting.find? p = some a) : waiting.eraseP p = waiting.filter (· ≠ a) := by
  obtain ⟨hpa, before, behind, rfl, hbefore⟩ := List.find?_eq_some_iff_append.mp h
  rw [List.nodup_middle, List.nodup_cons] at hw
  have hne : ∀ b ∈ before ++ behind, decide (b ≠ a) = true := by
    intro b hb
    simpa using fun hba : b = a => hw.1 (hba ▸ hb)
  rw [List.eraseP_append_right _ (by simpa using hbefore), List.eraseP_cons_of_pos hpa,
    List.filter_append, List.filter_cons_of_neg (by simp), ← List.filter_append,
    List.filter_eq_self.mpr hne]

theorem unclaimed_cons (pool : Pool) (pools : List Pool) {waiting : List Address}
    (hw : waiting.Nodup) :
    unclaimed (pool :: pools) waiting = unclaimed pools (waiting.eraseP pool.set.contains) := by
  have hmem (a : Address) : some a ∈ (demands (pool :: pools) waiting).map Prod.snd ↔
      waiting.find? pool.set.contains = some a ∨
        some a ∈ (demands pools (waiting.eraseP pool.set.contains)).map Prod.snd := by
    rw [demands, List.map_cons, List.mem_cons, eq_comm]
  cases hfind : waiting.find? pool.set.contains with
  | none =>
    have hnone : waiting.eraseP pool.set.contains = waiting :=
      List.eraseP_of_forall_not (List.find?_eq_none.mp hfind)
    rw [unclaimed, unclaimed, hnone]
    refine List.filter_congr fun a _ => decide_eq_decide.mpr (not_congr ?_)
    rw [hmem, hfind, hnone]
    simp
  | some b =>
    rw [unclaimed, unclaimed, eraseP_eq_filter hw hfind, List.filter_filter]
    refine List.filter_congr fun a _ => ?_
    rw [Bool.eq_iff_iff, decide_eq_true_iff, hmem, hfind, eraseP_eq_filter hw hfind,
      Bool.and_eq_true, decide_eq_true_iff, decide_eq_true_iff, not_or, and_comm,
      Option.some_inj, eq_comm]

end Allocation

/-- The step in which a set is asked as it is to be, and gives an address. -/
inductive Step.Gives (owner : String) : Pool × Option Address → Step → Prop
  | intro (pool : Pool) (requested : Option Address) (l : Lease) (xs : List Exchange) :
      Gives owner (pool, requested) (.acquire pool owner requested (.ok l) xs)

/-- How a call for addresses of some sets ends, by the steps that it makes, when the sets `given`
gave addresses before: every set gives one; or a set gives none, or requests are left, and then the
sets that gave an address are released. -/
inductive ComesTo (owner : String) (given pools : List Pool) (waiting : List Address) :
    Except Error (List Lease) → List Step → Prop
  | granted (asked : List Step) :
      List.Forall₂ (Step.Gives owner) (demands pools waiting) asked →
      unclaimed pools waiting = [] →
      ComesTo owner given pools waiting (.ok (asked.filterMap Step.lease?)) asked
  | refused (k : Nat) (pool : Pool) (requested : Option Address) (cause : Error)
      (xs : List Exchange) (asked undone : List Step) :
      List.Forall₂ (Step.Gives owner) ((demands pools waiting).take k) asked →
      (demands pools waiting)[k]? = some (pool, requested) →
      List.Forall₂ (Step.Releases owner) (given ++ pools.take k) undone →
      ComesTo owner given pools waiting (.error (.allocation (given.length + k) cause))
        (asked ++ .acquire pool owner requested (.error cause) xs :: undone)
  | unmatched (asked undone : List Step) :
      List.Forall₂ (Step.Gives owner) (demands pools waiting) asked →
      List.Forall₂ (Step.Releases owner) (given ++ pools) undone →
      unclaimed pools waiting ≠ [] →
      ComesTo owner given pools waiting (.error (.unmatched (unclaimed pools waiting)))
        (asked ++ undone)

theorem ComesTo.cons {given pools : List Pool} {waiting : List Address}
    {v : Except Error (List Lease)} {steps : List Step} (hw : waiting.Nodup) (l : Lease)
    (xs : List Exchange)
    (h : ComesTo owner (given ++ [pool]) pools (waiting.eraseP pool.set.contains) v steps) :
    ComesTo owner given (pool :: pools) waiting (v.map (l :: ·))
      (.acquire pool owner (waiting.find? pool.set.contains) (.ok l) xs :: steps) := by
  have hgives : Step.Gives owner _ _ :=
    .intro pool (waiting.find? pool.set.contains) l xs
  have hleft := unclaimed_cons pool pools hw
  cases h with
  | granted asked hasked hnone => exact .granted _ (.cons hgives hasked) (hleft.trans hnone)
  | refused k pool' requested cause ys asked undone hasked hk hundone =>
    have hlength : (given ++ [pool]).length + k = given.length + (k + 1) := by
      simp only [List.length_append, List.length_singleton]
      omega
    rw [List.append_assoc, List.singleton_append, ← List.take_succ_cons] at hundone
    rw [hlength]
    exact .refused (k + 1) pool' requested cause ys _ undone (.cons hgives hasked) hk hundone
  | unmatched asked undone hasked hundone hsome =>
    rw [List.append_assoc] at hundone
    rw [← hleft] at hsome ⊢
    exact .unmatched _ undone (.cons hgives hasked) hundone hsome

namespace Allocation

theorem releaseEach_runs (store : Store σ) (owner : String) (pools : List Pool) (s : σ) :
    ∃ s' steps, Runs store s steps s' ∧ List.Forall₂ (Step.Releases owner) pools steps ∧
      ∀ before, Action.result (releaseEach store.recorded owner pools) ⟨s, before⟩ =
        ((), ⟨s', before ++ steps.flatMap Step.exchanges⟩) := by
  obtain ⟨s', steps, hruns, hreleases, hrun⟩ := releaseFailures_runs store owner pools s
  refine ⟨s', steps, hruns, hreleases, fun before => ?_⟩
  rw [result_releaseEach_eq, hrun]

/-- **A call for addresses ends in one of three ways, by the steps that it makes.** -/
theorem acquireEach_runs (store : Store σ) (owner : String) (phase : Phase)
    {given pools : List Pool} {waiting : List Address} (hw : waiting.Nodup)
    (hids : ∀ k pool, pools[k]? = some pool → pool.id = given.length + k) (s : σ) :
    ∃ v s' steps, Runs store s steps s' ∧ ComesTo owner given pools waiting v steps ∧
      ∀ before, Action.result (acquireEach store.recorded owner phase given waiting pools)
        ⟨s, before⟩ = (v, ⟨s', before ++ steps.flatMap Step.exchanges⟩) := by
  induction pools generalizing phase given waiting s with
  | nil =>
    by_cases hwaiting : waiting = []
    · subst hwaiting
      refine ⟨_, s, [], .nil s, .granted [] .nil rfl, fun before => ?_⟩
      rw [result_acquireEach_nil, List.flatMap_nil, List.append_nil]
      rfl
    · have hleft : unclaimed [] waiting = waiting := by simp [unclaimed, demands]
      obtain ⟨s', undone, hruns, hreleases, hrun⟩ := releaseEach_runs store owner given s
      rw [← List.append_nil given] at hreleases
      refine ⟨_, s', _, hruns, .unmatched [] undone .nil hreleases (by rwa [hleft]),
        fun before => ?_⟩
      rw [result_acquireEach_of_waiting _ _ _ _ _ _ hwaiting, hrun, hleft]
  | cons pool pools ih =>
    obtain ⟨v, s₁, xs, -, hrun⟩ :=
      pool.asks_acquire store owner (waiting.find? pool.set.contains) s
    have hmade : Step.Made store s s₁ (.acquire pool owner _ v xs) := .acquire (hrun [])
    cases v with
    | error cause =>
      obtain ⟨s', undone, hruns, hreleases, hundo⟩ := releaseEach_runs store owner given s₁
      have hid := hids 0 pool rfl
      rw [← List.append_nil given] at hreleases
      refine ⟨_, s', _, .cons hmade hruns, .refused 0 pool _ cause xs [] undone .nil rfl hreleases,
        fun before => ?_⟩
      rw [result_acquireEach_cons, ← result_verdict, hrun]
      dsimp only
      rw [hundo, hid, List.append_assoc]
      rfl
    | ok l =>
      have hids' : ∀ k p, pools[k]? = some p → p.id = (given ++ [pool]).length + k := by
        intro k p hp
        rw [hids (k + 1) p hp, List.length_append, List.length_singleton]
        omega
      obtain ⟨v, s', steps, hruns, hcomes, hrest⟩ := ih (.allocating pool.id)
        (hw.sublist (List.eraseP_sublist (p := pool.set.contains))) hids' s₁
      refine ⟨_, s', _, .cons hmade hruns, hcomes.cons hw l xs, fun before => ?_⟩
      rw [result_acquireEach_cons, ← result_verdict, hrun]
      dsimp only
      rw [hrest, List.append_assoc]
      rfl

theorem allocateAll_runs (store : Store σ) (sets : List RangeSet) (owner : String)
    (requested : List Address) (s : σ) :
    ∃ v s' steps, Runs store s steps s' ∧
      ComesTo owner [] (pools sets) (requests requested) v steps ∧
      result (allocateAll store.recorded sets owner requested) ⟨s, []⟩ =
        (v, ⟨s', steps.flatMap Step.exchanges⟩) := by
  have hids : ∀ k pool, (pools sets)[k]? = some pool → pool.id = ([] : List Pool).length + k := by
    intro k pool hk
    rw [getElem?_pools, Option.map_eq_some_iff] at hk
    obtain ⟨set, -, rfl⟩ := hk
    exact (Nat.zero_add k).symm
  obtain ⟨v, s', steps, hruns, hcomes, hrun⟩ :=
    acquireEach_runs store owner .pending (requests_nodup requested) hids s
  exact ⟨v, s', steps, hruns, hcomes, hrun []⟩

end Allocation

/-- **Whatever the store does, a call for addresses either gives one from each set, or tells why the
first set that gave none did not, or which requests no set was asked for, and in both cases it
releases the sets that gave one, each once and in order, whatever comes of that.** -/
theorem allocateAll_comesTo (store : Store σ) (sets : List RangeSet) (owner : String)
    (requested : List Address) (s : σ) :
    ∃ v s' steps, Runs store s steps s' ∧
      result (allocateAll store.recorded sets owner requested) ⟨s, []⟩ =
        (v, ⟨s', steps.flatMap Step.exchanges⟩) ∧
      ComesTo owner [] (pools sets) (requested.map Address.canonical).eraseDups v steps := by
  obtain ⟨v, s', steps, hruns, hcomes, hrun⟩ :=
    allocateAll_runs store sets owner requested s
  rw [requests_eq] at hcomes
  exact ⟨v, s', steps, hruns, hrun, hcomes⟩

end AddressPool
