import AddressPool.Proofs.Allocation.RollBack
import Mathlib.Tactic

/-!
# What allocation does to the reservations of a memory

Whatever is asked of the sets, the reservations of a memory change in one of two ways.  An address
that was free is reserved for the owner who asks (`Memory.Granted`), or everything that the owner
has is released.  The sets of a call may overlap here, and what one of them has given is then not
free for another.
-/

namespace AddressPool

open Allocation Attempt

variable {owner : String} {m m' : Memory} {pool : Pool}

/-! ### Grants -/

/-- Some addresses that were free are reserved for an owner, and the other reservations are as they
were. -/
structure Memory.Granted (owner : String) (as : List Address) (m m' : Memory) : Prop where
  free : ∀ a ∈ as, m.owner? a = none
  owners : ∀ text : String, m'.owners[text]? =
    if ∃ a ∈ as, a.text = text then some (Text.trim owner) else m.owners[text]?

namespace Memory.Granted

variable {as : List Address} {a : Address} {text o : String}

theorem owner?_of_mem (h : Granted owner as m m') (ha : a ∈ as) :
    m'.owner? a = some (Text.trim owner) := by
  rw [owner?, h.owners, if_pos ⟨a, ha, rfl⟩]

theorem text_ne (h : Granted owner as m m') (htext : m.owners[text]? = some o) :
    ¬ ∃ a ∈ as, a.text = text := by
  rintro ⟨a, ha, rfl⟩
  have hfree := h.free a ha
  rw [owner?, htext] at hfree
  cases hfree

theorem keeps (h : Granted owner as m m') (htext : m.owners[text]? = some o) :
    m'.owners[text]? = some o := by
  rw [h.owners, if_neg (h.text_ne htext), htext]

theorem others_iff (h : Granted owner as m m') (ho : o ≠ Text.trim owner) :
    m'.owners[text]? = some o ↔ m.owners[text]? = some o := by
  refine ⟨fun htext => ?_, h.keeps⟩
  rw [h.owners] at htext
  split_ifs at htext
  · exact absurd (Option.some.inj htext).symm ho
  · exact htext

theorem nil (h : m'.owners = m.owners) : Granted owner [] m m' :=
  ⟨by simp, by simp [h]⟩

theorem cons {as : List Address} (hfree : m.owner? a = none) (setId : Nat)
    (h : Granted owner as (m.grant owner a setId).unlocked m') : Granted owner (a :: as) m m' := by
  have hgrant : ∀ text : String, (m.grant owner a setId).unlocked.owners[text]? =
      if a.text = text then some (Text.trim owner) else m.owners[text]? :=
    m.owners_grant owner a setId
  refine ⟨?_, fun text => ?_⟩
  · intro b hb
    rcases List.mem_cons.mp hb with rfl | hb
    · exact hfree
    · have hnone := h.free b hb
      rw [owner?, hgrant] at hnone
      split_ifs at hnone
      exact hnone
  · rw [h.owners, hgrant]
    simp only [List.mem_cons, exists_eq_or_imp]
    by_cases hrest : ∃ b ∈ as, b.text = text <;> by_cases hfirst : a.text = text <;>
      simp [hrest, hfirst]

end Memory.Granted

/-! ### Sets -/

/-- **An attempt to get an address from one set grants it, or leaves the reservations alone.** -/
theorem Pool.granted_acquire (hs : pool.set.Sound) {requested : Option Address}
    {v : Except Error Lease} (h : result (pool.acquire Memory.store owner requested) m = (v, m')) :
    match v with
    | .ok l => m.owner? l.address.address = none ∧
        m' = (m.grant owner l.address.address pool.id).unlocked
    | .error _ => m' = m.unlocked := by
  rw [Pool.result_acquire m owner hs] at h
  cases hchoice : pool.choice m requested with
  | error e =>
    rw [hchoice] at h
    cases h
    rfl
  | ok p =>
    obtain ⟨hspanned, -, hfree⟩ := Pool.choice_eq_ok m hs hchoice
    obtain ⟨l, hl, hleased⟩ := Pool.lease_of_spanned hs hspanned
    rw [hchoice] at h
    dsimp only at h
    rw [hl] at h
    cases h
    rw [← hleased.address] at hfree
    exact ⟨hfree, by rw [hleased.address]⟩

theorem Allocation.granted_acquireEach {phase : Phase} {given pools : List Pool}
    {waiting : List Address} {ls : List Lease} (hsound : ∀ pool ∈ pools, pool.set.Sound)
    (h : Action.result (acquireEach Memory.store owner phase given waiting pools) m = (.ok ls, m')) :
    Memory.Granted owner (ls.map (·.address.address)) m m' := by
  induction pools generalizing phase given waiting m ls with
  | nil =>
    by_cases hwaiting : waiting = []
    · rw [hwaiting, result_acquireEach_nil] at h
      cases h
      exact .nil rfl
    · rw [result_acquireEach_of_waiting _ _ _ _ _ _ hwaiting] at h
      cases h
  | cons pool pools ih =>
    obtain ⟨hs, hsound⟩ := List.forall_mem_cons.mp hsound
    rw [result_acquireEach_cons] at h
    rcases hacquire : result (pool.acquire Memory.store owner
      (waiting.find? pool.set.contains)) m with ⟨_ | l, m₁⟩
    · rw [hacquire] at h
      cases h
    · rw [hacquire] at h
      obtain ⟨hfree, rfl⟩ := Pool.granted_acquire hs hacquire
      dsimp only at h
      rcases hrest : Action.result (acquireEach Memory.store owner (.allocating pool.id)
        (given ++ [pool]) (waiting.eraseP pool.set.contains) pools)
        (m.grant owner l.address.address pool.id).unlocked with ⟨_ | ks, m₂⟩
      · rw [hrest] at h
        cases h
      · rw [hrest] at h
        cases h
        exact .cons hfree pool.id (ih hsound hrest)

theorem allocateAll_granted {sets : List RangeSet} (hsets : ∀ s ∈ sets, s.Canonicalized)
    {requested : List Address} {ls : List Lease}
    (h : result (allocateAll Memory.store sets owner requested) m = (.ok ls, m')) :
    Memory.Granted owner (ls.map (·.address.address)) m m' :=
  granted_acquireEach (fun _ hpool => (hsets _ (set_mem_of_mem_pools hpool)).sound) h

/-! ### Releases -/

theorem Allocation.result_releaseFailures_cons {σ : Type} (store : Store σ) (owner : String)
    (pool : Pool) (pools : List Pool) (s : σ) :
    Action.result (releaseFailures store owner (pool :: pools)) s =
      match result (pool.release store owner) s with
      | (.ok _, s) => Action.result (releaseFailures store owner pools) s
      | (.error e, s) =>
        match Action.result (releaseFailures store owner pools) s with
        | (causes, s) => (e.message :: causes, s) := by
  rw [releaseFailures, Action.result_bind, result_verdict, Action.result_bind]
  rcases result (pool.release store owner) s with ⟨_ | _, s'⟩ <;> rfl

theorem Allocation.result_releaseFailures (owner : String) (m : Memory) (given : List Pool) :
    Action.result (releaseFailures Memory.store owner given) m =
      ([], m.rolledBack owner given) := by
  induction given generalizing m with
  | nil => rfl
  | cons pool given ih =>
    rw [result_releaseFailures_cons, Pool.result_release]
    dsimp only
    rw [ih, Memory.rolledBack_releaseOwner]
    rfl

theorem result_releaseAll (sets : List RangeSet) (owner : String) (m : Memory) :
    result (releaseAll Memory.store sets owner) m = (.ok (), m.rolledBack owner (pools sets)) := by
  rw [releaseAll, result_ofVerdict, Action.result_bind, result_releaseFailures]
  rfl

end AddressPool
