import AddressPool.Proofs.Allocation.All
import Mathlib.Tactic

/-!
# What a failed call leaves in memory

A call that fails has had addresses from the sets before the one it failed at, and from no other
(`acquireEach_error`).  If there were such sets, then releasing them takes every reservation of the
owner, not only those that the call made: `allocateAll_error_keeps_others` says that nothing of the
call is left behind and nobody else loses anything, and `allocateAll_error_keeps_all_iff` says when
the owner loses nothing either.
-/

namespace AddressPool

open Allocation Attempt

/-- A call fails behind some of its sets: because the next one gives no address, or because there is
no other and requests are left over. -/
def FailsAt (pools : List Pool) (k : Nat) (e : Error) : Prop :=
  (∃ pool, pools[k]? = some pool ∧ ∃ cause, e = .allocation pool.id cause) ∨
    k = pools.length ∧ ∃ waiting, e = .unmatched waiting

theorem FailsAt.cons {pools : List Pool} {k : Nat} {e : Error} (h : FailsAt pools k e)
    (pool : Pool) : FailsAt (pool :: pools) (k + 1) e := by
  rcases h with h | ⟨rfl, h⟩
  · exact Or.inl h
  · exact Or.inr ⟨rfl, h⟩

/-- What a call that fails behind `k` of its sets leaves of a memory, when the sets `given` gave
addresses before.  If no set gave an address then nobody loses one, and else the owner loses all;
only the sets that gave an address had their marker moved, and the lock is given back. -/
structure LeftBehind (owner : String) (m m' : Memory) (given pools : List Pool) (k : Nat) :
    Prop where
  owners : m'.owners = if given = [] ∧ k = 0 then m.owners else (m.releaseOwner owner).owners
  last : ∀ j, j ∉ (pools.take k).map Pool.id → m'.last[j]? = m.last[j]?
  held : m.held = false → m'.held = false

theorem failsAt_pools_iff {sets : List RangeSet} {i : Nat} {e : Error} :
    FailsAt (pools sets) i e ↔
      (i < sets.length ∧ ∃ cause, e = .allocation i cause) ∨
        i = sets.length ∧ ∃ waiting, e = .unmatched waiting := by
  rw [FailsAt, length_pools, getElem?_pools]
  refine or_congr_left ?_
  constructor
  · rintro ⟨pool, hpool, cause, rfl⟩
    obtain ⟨s, hs, rfl⟩ := Option.map_eq_some_iff.mp hpool
    exact ⟨(List.getElem?_eq_some_iff.mp hs).1, cause, rfl⟩
  · rintro ⟨hi, cause, rfl⟩
    exact ⟨⟨sets[i], i⟩, by rw [List.getElem?_eq_getElem hi]; rfl, cause, rfl⟩

namespace LeftBehind

variable {owner : String} {m m' : Memory} {given pools : List Pool} {k : Nat}

theorem keeps_others (h : LeftBehind owner m m' given pools k) {text o : String}
    (htext : m.owners[text]? = some o) (ho : o ≠ Text.trim owner) : m'.owners[text]? = some o := by
  rw [h.owners]
  split_ifs
  · exact htext
  · rw [Memory.owners_releaseOwner, Option.filter_eq_some_iff]
    exact ⟨htext, by simpa using ho⟩

theorem keeps_of_owner_nothing (h : LeftBehind owner m m' given pools k)
    (hnone : ∀ text : String, m.owners[text]? ≠ some (Text.trim owner)) (text o : String)
    (htext : m.owners[text]? = some o) : m'.owners[text]? = some o :=
  h.keeps_others htext fun ho => hnone text (ho ▸ htext)

theorem owner_nothing_of_keeps (h : LeftBehind owner m m' given pools k) (hk : 0 < k)
    (hkeeps : ∀ text o : String, m.owners[text]? = some o → m'.owners[text]? = some o)
    (text : String) : m.owners[text]? ≠ some (Text.trim owner) := by
  intro htext
  have hlost := hkeeps text _ htext
  rw [h.owners, if_neg (by omega), Memory.owners_releaseOwner, Option.filter_eq_some_iff] at hlost
  simp at hlost

end LeftBehind

theorem leftBehind_rolledBack (owner : String) (m : Memory) (given pools : List Pool) :
    LeftBehind owner m (m.rolledBack owner given) given pools 0 := by
  cases given with
  | nil => exact ⟨rfl, fun _ _ => rfl, id⟩
  | cons _ _ => exact ⟨rfl, fun _ _ => rfl, fun _ => rfl⟩

theorem LeftBehind.cons {owner : String} {m m' : Memory} {given pools : List Pool} {k : Nat}
    {pool : Pool} {a : Address} (hfree : m.owner? a = none)
    (h : LeftBehind owner (m.grant owner a pool.id).unlocked m' (given ++ [pool]) pools k) :
    LeftBehind owner m m' given (pool :: pools) (k + 1) := by
  refine ⟨?_, ?_, fun _ => h.held rfl⟩
  · rw [h.owners, if_neg (by simp), if_neg (by simp)]
    exact Memory.releaseOwner_grant pool.id hfree
  · intro j hj
    rw [List.take_succ_cons, List.map_cons, List.mem_cons, not_or] at hj
    rw [h.last j hj.2]
    exact (Memory.last_grant m owner a pool.id j).trans (if_neg (Ne.symm hj.1))

/-- **A call that fails does so behind some of its sets, and only these have been changed.** -/
theorem acquireEach_error {owner : String} {phase : Phase} {given pools : List Pool}
    {waiting : List Address} {m m' : Memory} {e : Error}
    (hsound : ∀ pool ∈ pools, pool.set.Sound)
    (h : Action.result (acquireEach Memory.store owner phase given waiting pools) m =
      (.error e, m')) :
    ∃ k, FailsAt pools k e ∧ LeftBehind owner m m' given pools k := by
  induction pools generalizing phase given waiting m with
  | nil =>
    obtain ⟨rfl, rfl⟩ := acquireEach_nil_error h
    rw [result_releaseEach]
    exact ⟨0, Or.inr ⟨rfl, waiting, rfl⟩, leftBehind_rolledBack owner m given []⟩
  | cons pool pools ih =>
    obtain ⟨hs, hsound⟩ := List.forall_mem_cons.mp hsound
    cases hchoice : pool.choice m (waiting.find? pool.set.contains) with
    | error cause =>
      rw [result_acquireEach_of_error hs hchoice] at h
      cases h
      have hleft := leftBehind_rolledBack owner m.unlocked given (pool :: pools)
      exact ⟨0, Or.inl ⟨pool, rfl, cause, rfl⟩, hleft.owners, hleft.last, fun _ => hleft.held rfl⟩
    | ok p =>
      obtain ⟨hspanned, -, hfree⟩ := Pool.choice_eq_ok m hs hchoice
      obtain ⟨l, hl, -⟩ := Pool.lease_of_spanned hs hspanned
      rw [result_acquireEach_of_ok hs hchoice hl] at h
      rcases hrest : Action.result (acquireEach Memory.store owner (.allocating pool.id)
        (given ++ [pool]) (waiting.eraseP pool.set.contains) pools)
        (m.grant owner p.address pool.id).unlocked with ⟨e' | ls, m₁⟩
      · rw [hrest] at h
        cases h
        obtain ⟨k, hfails, hleft⟩ := ih hsound hrest
        exact ⟨k + 1, hfails.cons pool, hleft.cons hfree⟩
      · rw [hrest] at h
        cases h

theorem allocateAll_error {sets : List RangeSet} (hsets : ∀ s ∈ sets, s.Canonicalized)
    {m m' : Memory} {owner : String} {requested : List Address} {e : Error}
    (h : result (allocateAll Memory.store sets owner requested) m = (.error e, m')) :
    ∃ k, FailsAt (pools sets) k e ∧ LeftBehind owner m m' [] (pools sets) k :=
  acquireEach_error (fun _ hpool => (hsets _ (set_mem_of_mem_pools hpool)).sound) h

/-- **A failed call leaves nothing of its own behind and takes nothing from others.** -/
theorem allocateAll_error_keeps_others {sets : List RangeSet}
    (hsets : ∀ s ∈ sets, s.Canonicalized) {m m' : Memory} {owner : String}
    {requested : List Address} {e : Error}
    (h : result (allocateAll Memory.store sets owner requested) m = (.error e, m')) :
    (∀ text o : String, m'.owners[text]? = some o → m.owners[text]? = some o) ∧
      (∀ text o : String, m.owners[text]? = some o → o ≠ Text.trim owner →
        m'.owners[text]? = some o) ∧
      (m.held = false → m'.held = false) ∧
      ∃ i, FailsAt (pools sets) i e ∧ ∀ j, i ≤ j → m'.last[j]? = m.last[j]? := by
  obtain ⟨i, hfails, hleft⟩ := allocateAll_error hsets h
  refine ⟨?_, fun _ _ => hleft.keeps_others, hleft.held, i, hfails, ?_⟩
  · intro text o htext
    rw [hleft.owners] at htext
    split_ifs at htext
    · exact htext
    · rw [Memory.owners_releaseOwner, Option.filter_eq_some_iff] at htext
      exact htext.1
  · intro j hj
    refine hleft.last j fun hmem => ?_
    have := id_lt_of_mem_take_pools hmem
    omega

/-- A memory in which the only candidate of the second set is reserved for someone else. -/
def fullMemory : Memory where
  owners := (∅ : Std.ExtTreeMap String String).insert "10.0.5.5" "dummy"
    |>.insert "10.0.1.2" "other"

theorem fullMemory_fails : ∃ e m',
    result (allocateAll Memory.store [tightSet 0, tightSet 1] "dummy" []) fullMemory =
      (.error e, m') ∧ m'.owners["10.0.5.5"]? = none := by
  have hrun : (result (allocateAll Memory.store [tightSet 0, tightSet 1] "dummy" [])
      fullMemory).1.isOk = false ∧
      (result (allocateAll Memory.store [tightSet 0, tightSet 1] "dummy" [])
        fullMemory).2.owners["10.0.5.5"]? = none := by
    decide +kernel
  generalize result (allocateAll Memory.store [tightSet 0, tightSet 1] "dummy" []) fullMemory = r
    at hrun ⊢
  obtain ⟨e | _, m'⟩ := r
  · exact ⟨e, m', rfl, hrun.2⟩
  · exact absurd hrun.1 Bool.noConfusion

theorem allocateAll_error_keeps_others_fullMemory : ∃ e m',
    result (allocateAll Memory.store [tightSet 0, tightSet 1] "dummy" []) fullMemory =
      (.error e, m') ∧
      (∀ text o : String, fullMemory.owners[text]? = some o → o ≠ Text.trim "dummy" →
        m'.owners[text]? = some o) := by
  obtain ⟨e, m', h, -⟩ := fullMemory_fails
  exact ⟨e, m', h, (allocateAll_error_keeps_others canonicalized_tightSets h).2.1⟩

/-- **A failed call takes nothing away exactly if it failed at the first set, or if the owner had
nothing.** -/
theorem allocateAll_error_keeps_all_iff {sets : List RangeSet}
    (hsets : ∀ s ∈ sets, s.Canonicalized) {m m' : Memory} {owner : String}
    {requested : List Address} {e : Error}
    (h : result (allocateAll Memory.store sets owner requested) m = (.error e, m')) :
    (∀ text o : String, m.owners[text]? = some o → m'.owners[text]? = some o) ↔
      sets = [] ∨ (∃ cause, e = .allocation 0 cause) ∨
        ∀ text : String, m.owners[text]? ≠ some (Text.trim owner) := by
  obtain ⟨i, hfails, hleft⟩ := allocateAll_error hsets h
  rw [failsAt_pools_iff] at hfails
  constructor
  · intro hkeeps
    rcases hfails with ⟨hi, cause, rfl⟩ | ⟨rfl, -⟩
    · rcases Nat.eq_zero_or_pos i with rfl | hpos
      · exact Or.inr (Or.inl ⟨cause, rfl⟩)
      · exact Or.inr (Or.inr (hleft.owner_nothing_of_keeps hpos hkeeps))
    · rcases Nat.eq_zero_or_pos sets.length with hnil | hpos
      · exact Or.inl (List.length_eq_zero_iff.mp hnil)
      · exact Or.inr (Or.inr (hleft.owner_nothing_of_keeps hpos hkeeps))
  · intro hcases
    by_cases hi : i = 0
    · intro text o htext
      rw [hleft.owners, if_pos ⟨rfl, hi⟩]
      exact htext
    · rcases hcases with rfl | ⟨cause, rfl⟩ | hnone
      · rcases hfails with ⟨hlt, -⟩ | ⟨hlen, -⟩
        · exact absurd hlt (Nat.not_lt_zero i)
        · exact absurd hlen hi
      · rcases hfails with ⟨-, cause', hcause⟩ | ⟨-, waiting, hwaiting⟩
        · cases hcause
          exact absurd rfl hi
        · cases hwaiting
      · exact hleft.keeps_of_owner_nothing hnone

theorem allocateAll_error_keeps_all_iff_fullMemory : ∃ e m',
    result (allocateAll Memory.store [tightSet 0, tightSet 1] "dummy" []) fullMemory =
      (.error e, m') ∧
      ((∀ text o : String, fullMemory.owners[text]? = some o → m'.owners[text]? = some o) ↔
        [tightSet 0, tightSet 1] = [] ∨ (∃ cause, e = .allocation 0 cause) ∨
          ∀ text : String, fullMemory.owners[text]? ≠ some (Text.trim "dummy")) := by
  obtain ⟨e, m', h, -⟩ := fullMemory_fails
  exact ⟨e, m', h, allocateAll_error_keeps_all_iff canonicalized_tightSets h⟩

theorem not_allocateAll_error_keeps_all :
    ¬ ∀ (sets : List RangeSet) (m m' : Memory) (owner : String) (requested : List Address)
      (e : Error), (∀ s ∈ sets, s.Canonicalized) →
      result (allocateAll Memory.store sets owner requested) m = (.error e, m') →
      ∀ text o : String, m.owners[text]? = some o → m'.owners[text]? = some o := by
  intro hkeeps
  obtain ⟨e, m', h, hlost⟩ := fullMemory_fails
  have hkept := hkeeps _ _ _ _ _ _ canonicalized_tightSets h "10.0.5.5" "dummy" (by decide +kernel)
  rw [hlost] at hkept
  cases hkept

end AddressPool
