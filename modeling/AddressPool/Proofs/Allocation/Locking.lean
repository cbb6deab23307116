import AddressPool.Proofs.Allocation.Undone
import Mathlib.Tactic

/-!
# The lock of a store

Whatever a store does and wherever it fails, nobody who gets or frees addresses asks for the lock
while holding it, gives back what is not held, or asks for anything else without it, and at the end
the lock is not held (`Disciplined`).  One set is done in one turn: the lock is refused and that is
all, or it is given, and given back once after whatever was to be done (`OneTurn`).
-/

namespace AddressPool

open Allocation Attempt

variable {σ : Type} {store : Store σ} {s s' : σ}

/-! ### One turn, and many -/

/-- What is asked in one turn under the lock. -/
inductive OneTurn : List Exchange → Prop
  | refused (e : Error) : OneTurn [.lock (.error e)]
  | admitted (xs : List Exchange) (u : Except Error Unit) :
      (∀ x ∈ xs, x.underLock = true) → OneTurn (.lock (.ok ()) :: (xs ++ [.unlock u]))

/-- Whether the lock is held after an exchange, none if the exchange is against the rules: the lock
is asked for by those who do not hold it, and everything else by those who do. -/
def Exchange.hold? : Bool → Exchange → Option Bool
  | false, lock (.ok _) => some true
  | false, lock (.error _) => some false
  | true, unlock _ => some false
  | held, x => if held && x.underLock then some true else none

/-- Every exchange keeps to the rules, and the lock is held neither before nor after them. -/
def Disciplined (xs : List Exchange) : Prop :=
  xs.foldlM Exchange.hold? false = some false

instance (xs : List Exchange) : Decidable (Disciplined xs) :=
  inferInstanceAs (Decidable (_ = _))

theorem Exchange.hold?_of_underLock {x : Exchange} (hx : x.underLock = true) :
    x.hold? true = some true := by
  cases x <;> first | rfl | cases hx

theorem foldlM_hold? {xs : List Exchange} (h : ∀ x ∈ xs, x.underLock = true) :
    xs.foldlM Exchange.hold? true = some true := by
  induction xs with
  | nil => rfl
  | cons x xs ih =>
    rw [List.forall_mem_cons] at h
    rw [List.foldlM_cons, Exchange.hold?_of_underLock h.1]
    exact ih h.2

theorem OneTurn.disciplined {xs : List Exchange} (h : OneTurn xs) : Disciplined xs := by
  cases h with
  | refused e => rfl
  | admitted xs u hxs =>
    have hheld : (xs ++ [Exchange.unlock u]).foldlM Exchange.hold? true = some false := by
      rw [List.foldlM_append, foldlM_hold? hxs]
      rfl
    exact hheld

example : Disciplined [.lock (.ok ()), .releaseOwner "dummy" (.ok ()), .unlock (.ok ())] ∧
    ¬ Disciplined [.lock (.ok ()), .releaseOwner "dummy" (.ok ())] := by decide

theorem Disciplined.append {xs ys : List Exchange} (hxs : Disciplined xs) (hys : Disciplined ys) :
    Disciplined (xs ++ ys) := by
  unfold Disciplined
  rw [List.foldlM_append, hxs]
  exact hys

theorem disciplined_flatMap {steps : List Step} (h : ∀ step ∈ steps, OneTurn step.exchanges) :
    Disciplined (steps.flatMap Step.exchanges) := by
  induction steps with
  | nil => rfl
  | cons step steps ih =>
    rw [List.forall_mem_cons] at h
    exact h.1.disciplined.append (ih h.2)

/-! ### Every step is one turn -/

theorem oneTurn_of_guarded {α : Type} {v : Except Error α} {xs : List Exchange}
    (h : Guarded (fun _ xs => ∀ x ∈ xs, x.underLock = true) v xs) : OneTurn xs := by
  cases h with
  | refused e => exact .refused e
  | admitted _ xs u hxs => exact .admitted xs u hxs

theorem Step.Made.oneTurn {step : Step} (h : Step.Made store s s' step) :
    OneTurn step.exchanges := by
  cases h with
  | @acquire pool owner requested v xs hmade =>
    exact oneTurn_of_guarded ((pool.asks_acquire store owner requested).of_result hmade)
  | @release pool owner v xs hmade =>
    refine oneTurn_of_guarded (((pool.asks_release store owner).of_result hmade).mono ?_)
    rintro _ _ rfl
    exact List.forall_mem_singleton.mpr rfl

theorem Runs.oneTurn {steps : List Step} (h : Runs store s steps s') :
    ∀ step ∈ steps, OneTurn step.exchanges := by
  induction h with
  | nil => exact List.forall_mem_nil _
  | cons hstep _ ih => exact List.forall_mem_cons.mpr ⟨hstep.oneTurn, ih⟩

/-! ### Whole calls -/

/-- What a call asks of a store, from a state, is made up of these steps; each of them is one turn,
and all of them keep to the rules. -/
structure Attempt.InTurns {α : Type} (store : Store σ) (s : σ) (m : Attempt (Recorded σ) α)
    (steps : List Step) : Prop where
  made : ∃ v s', result m ⟨s, []⟩ = (v, ⟨s', steps.flatMap Step.exchanges⟩) ∧
    Runs store s steps s'
  turns : ∀ step ∈ steps, OneTurn step.exchanges
  disciplined : Disciplined (steps.flatMap Step.exchanges)

theorem Runs.inTurns {α : Type} {m : Attempt (Recorded σ) α} {v : Except Error α}
    {steps : List Step} (h : Runs store s steps s')
    (hm : result m ⟨s, []⟩ = (v, ⟨s', steps.flatMap Step.exchanges⟩)) :
    m.InTurns store s steps where
  made := ⟨v, s', hm, h⟩
  turns := h.oneTurn
  disciplined := disciplined_flatMap h.oneTurn

theorem Step.Made.inTurns {α : Type} {m : Attempt (Recorded σ) α} {v : Except Error α} {step : Step}
    (h : step.Made store s s') (hm : result m ⟨s, []⟩ = (v, ⟨s', step.exchanges⟩)) :
    m.InTurns store s [step] := by
  have hruns : Runs store s [step] s' := .cons h (.nil s')
  refine hruns.inTurns (v := v) ?_
  rw [List.flatMap_singleton]
  exact hm

/-- **Whatever the store does, a set is asked for an address in one turn and released in one, and
what is done to all sets is done turn by turn.** -/
theorem calls_inTurns (store : Store σ) (s : σ) :
    (∀ (pool : Pool) (owner : String) (requested : Option Address), ∃ step,
      (pool.acquire store.recorded owner requested).InTurns store s [step]) ∧
    (∀ (pool : Pool) (owner : String), ∃ step,
      (pool.release store.recorded owner).InTurns store s [step]) ∧
    (∀ (sets : List RangeSet) (owner : String) (requested : List Address), ∃ steps,
      (allocateAll store.recorded sets owner requested).InTurns store s steps) ∧
    ∀ (sets : List RangeSet) (owner : String), ∃ steps,
      (releaseAll store.recorded sets owner).InTurns store s steps := by
  refine ⟨fun pool owner requested => ?_, fun pool owner => ?_, fun sets owner requested => ?_,
    fun sets owner => ?_⟩
  · obtain ⟨v, s', xs, -, hrun⟩ := pool.asks_acquire store owner requested s
    exact ⟨_, Step.Made.inTurns (.acquire (hrun [])) (hrun [])⟩
  · obtain ⟨v, s', xs, -, hrun⟩ := pool.asks_release store owner s
    exact ⟨_, Step.Made.inTurns (.release (hrun [])) (hrun [])⟩
  · obtain ⟨v, s', steps, hruns, -, hrun⟩ := allocateAll_runs store sets owner requested s
    exact ⟨steps, hruns.inTurns hrun⟩
  · obtain ⟨s', steps, hruns, -, hrun⟩ := releaseAll_runs store sets owner s
    exact ⟨steps, hruns.inTurns hrun⟩

end AddressPool
