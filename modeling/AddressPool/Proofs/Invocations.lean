import AddressPool.Proofs.Allocation.Granted
import Mathlib.Logic.Relation
import Mathlib.Tactic

/-!
# Invocations step by step

A call for addresses from all sets of a network holds the lock of the store for one set at a time,
and so does a call that gives all up.  `Invocation` is such a call between two of its steps, where a
step asks one set for an address or releases one set.  An invocation that is left alone comes to
what the call comes to (`alone_allocate`, `alone_releaseAll`), on any store.
-/

namespace AddressPool

open Allocation Attempt

/-- A call that goes through the sets of a network, between two of its steps.  The set that it
asks or releases next comes before those that are left. -/
inductive Invocation where
  | asking (owner : String) (got : List (Pool × Lease)) (waiting : List Address) (pool : Pool)
      (pools : List Pool)
  | rollingBack (owner : String) (got : List (Pool × Lease)) (cause : Error) (pool : Pool)
      (pools : List Pool)
  | succeeded (owner : String) (got : List (Pool × Lease))
  | failed (owner : String) (got : List (Pool × Lease)) (cause : Error)
  | releasing (owner : String) (causes : List String) (pool : Pool) (pools : List Pool)
  | released (owner : String) (causes : List String)

namespace Invocation

def rollBack (owner : String) (got : List (Pool × Lease)) (cause : Error) : List Pool → Invocation
  | [] => failed owner got cause
  | pool :: pools => rollingBack owner got cause pool pools

def ask (owner : String) (got : List (Pool × Lease)) (waiting : List Address) :
    List Pool → Invocation
  | [] =>
    if waiting.isEmpty then succeeded owner got
    else rollBack owner got (.unmatched waiting) (got.map Prod.fst)
  | pool :: pools => asking owner got waiting pool pools

def giveUp (owner : String) (causes : List String) : List Pool → Invocation
  | [] => released owner causes
  | pool :: pools => releasing owner causes pool pools

variable {σ : Type}

/-- Makes the next step of an invocation, if it is not over. -/
def step (store : Store σ) : Invocation → Action σ Invocation
  | asking owner got waiting pool pools => do
    let (requested, waiting) := takeRequest pool.set waiting
    match ← (pool.acquire store owner requested).verdict with
    | .ok l => return ask owner (got ++ [(pool, l)]) waiting pools
    | .error e => return rollBack owner got (.allocation pool.id e) (got.map Prod.fst)
  | rollingBack owner got cause pool pools => do
    let _ ← (pool.release store owner).verdict
    return rollBack owner got cause pools
  | releasing owner causes pool pools => do
    match ← (pool.release store owner).verdict with
    | .ok _ => return giveUp owner causes pools
    | .error e => return giveUp owner (causes ++ [e.message]) pools
  | i => return i

def owner : Invocation → String
  | asking owner .. | rollingBack owner .. | succeeded owner _ | failed owner .. => owner
  | releasing owner .. | released owner _ => owner

def unasked : Invocation → List Pool
  | asking _ _ _ pool pools => pool :: pools
  | rollingBack .. | succeeded .. | failed .. | releasing .. | released .. => []

/-- The leases that a call for addresses has got, as long as it has not failed. -/
def holds : Invocation → List Lease
  | asking _ got .. | succeeded _ got => got.map Prod.snd
  | rollingBack .. | failed .. | releasing .. | released .. => []

/-- The leases that a call for addresses had got that has failed and been rolled back. -/
def lost : Invocation → List Lease
  | failed _ got _ => got.map Prod.snd
  | asking .. | rollingBack .. | succeeded .. | releasing .. | released .. => []

variable {store : Store σ} {owner : String} {got : List (Pool × Lease)} {waiting : List Address}
  {cause : Error} {causes : List String} {pool : Pool} {pools : List Pool} {s s' : σ}

/-! ### One step -/

theorem result_step_asking :
    Action.result (step store (asking owner got waiting pool pools)) s =
      match result (pool.acquire store owner (waiting.find? pool.set.contains)) s with
      | (.ok l, s) => (ask owner (got ++ [(pool, l)]) (waiting.eraseP pool.set.contains) pools, s)
      | (.error e, s) =>
        (rollBack owner got (.allocation pool.id e) (got.map Prod.fst), s) := by
  rw [step, takeRequest_eq]
  dsimp only
  rw [Action.result_bind, result_verdict]
  rcases result (pool.acquire store owner _) s with ⟨_ | _, _⟩ <;> rfl

theorem result_step_rollingBack :
    Action.result (step store (rollingBack owner got cause pool pools)) s =
      (rollBack owner got cause pools, (result (pool.release store owner) s).2) := rfl

theorem result_step_releasing :
    Action.result (step store (releasing owner causes pool pools)) s =
      match result (pool.release store owner) s with
      | (.ok _, s) => (giveUp owner causes pools, s)
      | (.error e, s) => (giveUp owner (causes ++ [e.message]) pools, s) := by
  rw [step, Action.result_bind, result_verdict]
  rcases result (pool.release store owner) s with ⟨_ | _, _⟩ <;> rfl

/-! ### An invocation alone -/

/-- An invocation alone on a store makes its steps one after the other. -/
def Alone (store : Store σ) : Invocation × σ → Invocation × σ → Prop :=
  Relation.ReflTransGen fun x y => Action.result (step store x.1) x.2 = y

theorem alone_rollBack (store : Store σ) (owner : String) (got : List (Pool × Lease))
    (cause : Error) (pools : List Pool) (s : σ) :
    Alone store (rollBack owner got cause pools, s)
      (failed owner got cause, (Action.result (releaseEach store owner pools) s).2) := by
  induction pools generalizing s with
  | nil => exact .refl
  | cons pool pools ih =>
    rw [result_releaseEach_cons]
    exact .head result_step_rollingBack (ih _)

/-- How an invocation ends that comes to a verdict. -/
inductive EndsWith (owner : String) : Except Error (List Lease) → Invocation → Prop
  | ok (got : List (Pool × Lease)) : EndsWith owner (.ok (got.map Prod.snd)) (succeeded owner got)
  | error (got : List (Pool × Lease)) (e : Error) : EndsWith owner (.error e) (failed owner got e)

theorem alone_ask {phase : Phase} {v : Except Error (List Lease)}
    (h : Action.result (acquireEach store owner phase (got.map Prod.fst) waiting pools) s = (v, s')) :
    ∃ i, Alone store (ask owner got waiting pools, s) (i, s') ∧
      EndsWith owner (v.map (got.map Prod.snd ++ ·)) i := by
  induction pools generalizing phase got waiting s v with
  | nil =>
    by_cases hwaiting : waiting = []
    · subst hwaiting
      rw [result_acquireEach_nil] at h
      cases h
      refine ⟨succeeded owner got, .refl, ?_⟩
      show EndsWith owner (.ok (got.map Prod.snd ++ [])) _
      rw [List.append_nil]
      exact .ok got
    · rw [result_acquireEach_of_waiting _ _ _ _ _ _ hwaiting] at h
      cases h
      rw [ask, if_neg (by simpa using hwaiting)]
      exact ⟨_, alone_rollBack store owner got _ _ s, .error got _⟩
  | cons pool pools ih =>
    rw [result_acquireEach_cons] at h
    rcases hacquire : result (pool.acquire store owner (waiting.find? pool.set.contains)) s with
      ⟨e | l, s₁⟩
    · have hstep : Action.result (step store (ask owner got waiting (pool :: pools))) s =
          (rollBack owner got (.allocation pool.id e) (got.map Prod.fst), s₁) := by
        rw [ask, result_step_asking, hacquire]
      rw [hacquire] at h
      cases h
      exact ⟨_, .head hstep (alone_rollBack store owner got _ _ s₁), .error got _⟩
    · have hstep : Action.result (step store (ask owner got waiting (pool :: pools))) s =
          (ask owner (got ++ [(pool, l)]) (waiting.eraseP pool.set.contains) pools, s₁) := by
        rw [ask, result_step_asking, hacquire]
      rw [hacquire] at h
      dsimp only at h
      have hgiven : got.map Prod.fst ++ [pool] = (got ++ [(pool, l)]).map Prod.fst := by simp
      rw [hgiven] at h
      rcases hrest : Action.result (acquireEach store owner (.allocating pool.id)
        ((got ++ [(pool, l)]).map Prod.fst) (waiting.eraseP pool.set.contains) pools) s₁ with
        ⟨w, s₂⟩
      rw [hrest] at h
      cases h
      obtain ⟨i, halone, hends⟩ := ih hrest
      refine ⟨i, .head hstep halone, ?_⟩
      cases w with
      | error e => exact hends
      | ok ls => simpa [Except.map] using hends

/-- **A call for addresses is an invocation that is left alone.** -/
theorem alone_allocate {sets : List RangeSet} {requested : List Address}
    {v : Except Error (List Lease)}
    (h : result (allocateAll store sets owner requested) s = (v, s')) :
    ∃ i, Alone store (ask owner [] (requests requested) (AddressPool.pools sets), s) (i, s') ∧
      EndsWith owner v i := by
  have hempty : v.map ([] ++ ·) = v := by cases v <;> rfl
  obtain ⟨i, halone, hends⟩ := @alone_ask σ store owner [] _ _ s s' _ v h
  exact ⟨i, halone, hempty ▸ hends⟩

theorem alone_releasing (store : Store σ) (owner : String) (causes : List String)
    (pools : List Pool) (s : σ) :
    Alone store (giveUp owner causes pools, s)
      (released owner (causes ++ (Action.result (releaseFailures store owner pools) s).1),
        (Action.result (releaseFailures store owner pools) s).2) := by
  induction pools generalizing causes s with
  | nil =>
    show Alone store (released owner causes, s) (released owner (causes ++ []), s)
    rw [List.append_nil]
    exact .refl
  | cons pool pools ih =>
    rw [result_releaseFailures_cons]
    have hstep : Action.result (step store (giveUp owner causes (pool :: pools))) s = _ :=
      result_step_releasing
    rcases hrelease : result (pool.release store owner) s with ⟨e | _, s₁⟩
    · rw [hrelease] at hstep
      have htail := ih (causes ++ [e.message]) s₁
      rw [List.append_assoc] at htail
      exact .head hstep htail
    · rw [hrelease] at hstep
      exact .head hstep (ih causes s₁)

theorem alone_releaseAll (store : Store σ) (sets : List RangeSet) (owner : String) (s : σ) :
    ∃ causes, Alone store (giveUp owner [] (AddressPool.pools sets), s)
        (released owner causes, (result (releaseAll store sets owner) s).2) ∧
      (result (releaseAll store sets owner) s).1 =
        if causes = [] then .ok () else .error (.release causes) := by
  have halone := alone_releasing store owner [] (AddressPool.pools sets) s
  rw [releaseAll, result_ofVerdict, Action.result_bind]
  rcases hfailures : Action.result (releaseFailures store owner (AddressPool.pools sets)) s with
    ⟨causes, s'⟩
  rw [hfailures] at halone
  refine ⟨causes, ?_⟩
  cases causes with
  | nil => exact ⟨halone, rfl⟩
  | cons cause causes => exact ⟨halone, rfl⟩

end Invocation

end AddressPool
