import AddressPool.Proofs.Store.Recorded
import Mathlib.Tactic

/-!
# What is asked of a store

`Action.Asks P` says of an action on a recorded store that, from wherever it begins, it adds to the
record, and that `P` holds of its answer with what it adds.  An attempt that goes on after another
adds behind it (`Attempt.Asks.bind`).  What is done under the lock of a store stands between a lock
that was given and an unlock, or the lock was refused and nothing else was asked
(`Store.asks_locked`).
-/

namespace AddressPool

variable {σ α β : Type}

/-- The answer of an action goes with what it asks of the store, and neither depends on what was
asked before. -/
def Action.Asks (m : Action (Recorded σ) α) (P : α → List Exchange → Prop) : Prop :=
  ∀ s, ∃ a s' xs, P a xs ∧ ∀ before, result m ⟨s, before⟩ = (a, ⟨s', before ++ xs⟩)

/-- What an attempt asks, whose answer is a verdict. -/
def Attempt.Asks (m : Attempt (Recorded σ) α) (P : Except Error α → List Exchange → Prop) : Prop :=
  m.verdict.Asks P

namespace Action.Asks

variable {m : Action (Recorded σ) α} {P : α → List Exchange → Prop}

theorem pure {a : α} (h : P a []) : (Pure.pure a : Action (Recorded σ) α).Asks P := by
  intro s
  refine ⟨a, s, [], h, fun before => ?_⟩
  rw [List.append_nil]
  rfl

theorem mono {Q : α → List Exchange → Prop} (h : m.Asks P) (hPQ : ∀ a xs, P a xs → Q a xs) :
    m.Asks Q := by
  intro s
  obtain ⟨a, s', xs, hP, hrun⟩ := h s
  exact ⟨a, s', xs, hPQ a xs hP, hrun⟩

end Action.Asks

namespace Attempt.Asks

variable {m : Attempt (Recorded σ) α} {P : Except Error α → List Exchange → Prop}

theorem of_result (h : m.Asks P) {s s' : σ} {v : Except Error α} {xs : List Exchange}
    (hrun : result m ⟨s, []⟩ = (v, ⟨s', xs⟩)) : P v xs := by
  obtain ⟨u, s₁, ys, hP, hrun'⟩ := h s
  cases hrun.symm.trans (hrun' [])
  exact hP

theorem and_result (h : m.Asks P) {Q : Except Error α → Prop}
    (hQ : ∀ r v r', result m r = (v, r') → Q v) : m.Asks fun v xs => Q v ∧ P v xs := by
  intro s
  obtain ⟨v, s', xs, hP, hrun⟩ := h s
  exact ⟨v, s', xs, ⟨hQ _ _ _ (hrun []), hP⟩, hrun⟩

theorem record (exchange : Except Error α → Exchange) (n : Attempt σ α) :
    (Recorded.record exchange n).Asks fun v xs => xs = [exchange v] := by
  intro s
  exact ⟨(result n s).1, (result n s).2, [exchange (result n s).1], rfl, fun before => rfl⟩

theorem report {level : Level} {message : String} {P : Except Error Unit → List Exchange → Prop}
    (h : P (.ok ()) []) : (Attempt.report level message : Attempt (Recorded σ) Unit).Asks P := by
  intro s
  refine ⟨.ok (), s, [], h, fun before => ?_⟩
  rw [List.append_nil]
  rfl

theorem ofExcept {v : Except Error α} (h : P v []) :
    (Attempt.ofExcept v : Attempt (Recorded σ) α).Asks P :=
  Action.Asks.pure h

theorem bind {k : α → Attempt (Recorded σ) β} {Q : α → Except Error β → List Exchange → Prop}
    (hm : m.Asks P) (hk : ∀ a, (k a).Asks (Q a)) :
    (m >>= k).Asks fun v zs =>
      (∃ e, v = .error e ∧ P (.error e) zs) ∨
        ∃ a xs ys, zs = xs ++ ys ∧ P (.ok a) xs ∧ Q a v ys := by
  intro s
  obtain ⟨u, s₁, xs, hP, hrun⟩ := hm s
  cases u with
  | error e =>
    refine ⟨.error e, s₁, xs, Or.inl ⟨e, rfl, hP⟩, fun before => ?_⟩
    exact result_bind_of_error (hrun before) k
  | ok a =>
    obtain ⟨v, s₂, ys, hQ, hrest⟩ := hk a s₁
    refine ⟨v, s₂, xs ++ ys, Or.inr ⟨a, xs, ys, rfl, hP, hQ⟩, fun before => ?_⟩
    rw [← List.append_assoc]
    exact (result_bind_of_ok (hrun before) k).trans (hrest _)

end Attempt.Asks

/-! ### Under the lock -/

def Exchange.underLock : Exchange → Bool
  | reserve .. | lastReserved .. | releaseOwner .. => true
  | lock _ | unlock _ | close _ | release .. => false

/-- An attempt asks for nothing but what is asked for under the lock. -/
def Attempt.NeedsLock (m : Attempt (Recorded σ) α) : Prop :=
  m.Asks fun _ xs => ∀ x ∈ xs, x.underLock = true

namespace Attempt.NeedsLock

theorem ofExcept (v : Except Error α) :
    (Attempt.ofExcept v : Attempt (Recorded σ) α).NeedsLock :=
  Asks.ofExcept (P := fun _ xs => ∀ x ∈ xs, x.underLock = true) (by simp)

theorem bind {m : Attempt (Recorded σ) α} {k : α → Attempt (Recorded σ) β} (hm : m.NeedsLock)
    (hk : ∀ a, (k a).NeedsLock) : (m >>= k).NeedsLock := by
  refine Action.Asks.mono (Asks.bind hm hk) ?_
  rintro v zs (⟨e, -, hzs⟩ | ⟨a, xs, ys, rfl, hxs, hys⟩)
  · exact hzs
  · exact List.forall_mem_append.mpr ⟨hxs, hys⟩

end Attempt.NeedsLock

/-- What is asked when something is done under the lock of a store: without the lock nothing more,
and with it what `P` says, and then the lock is given back, whatever comes of that. -/
inductive Guarded (P : Except Error α → List Exchange → Prop) :
    Except Error α → List Exchange → Prop
  | refused (e : Error) : Guarded P (.error e) [.lock (.error e)]
  | admitted (v : Except Error α) (xs : List Exchange) (u : Except Error Unit) :
      P v xs → Guarded P v (.lock (.ok ()) :: (xs ++ [.unlock u]))

theorem Guarded.mono {P Q : Except Error α → List Exchange → Prop} {v : Except Error α}
    {xs : List Exchange} (h : Guarded P v xs) (hPQ : ∀ v xs, P v xs → Q v xs) : Guarded Q v xs := by
  cases h with
  | refused e => exact .refused e
  | admitted v xs u hP => exact .admitted v xs u (hPQ v xs hP)

theorem Store.asks_locked (store : Store σ) {body : Attempt (Recorded σ) α}
    {P : Except Error α → List Exchange → Prop} (h : body.Asks P) :
    (store.recorded.locked body).Asks (Guarded P) := by
  intro s
  rcases hlock : Attempt.result store.lock s with ⟨e | _, s₁⟩
  · refine ⟨.error e, s₁, _, .refused e, fun before => ?_⟩
    rw [Attempt.result_verdict, result_locked]
    dsimp only [recorded]
    rw [Recorded.result_record, hlock]
  · obtain ⟨v, s₂, xs, hP, hrun⟩ := h s₁
    refine ⟨v, (Attempt.result store.unlock s₂).2, _,
      .admitted v xs (Attempt.result store.unlock s₂).1 hP, fun before => ?_⟩
    rw [Attempt.result_verdict, result_locked]
    dsimp only [recorded]
    rw [Recorded.result_record, hlock]
    dsimp only
    rw [← Attempt.result_verdict body, hrun, Recorded.result_record]
    simp only [List.append_assoc, List.cons_append, List.nil_append]

end AddressPool
