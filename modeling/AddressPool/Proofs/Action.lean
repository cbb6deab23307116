import AddressPool.Action
import AddressPool.Store
import Mathlib.Tactic

/-!
# What actions come to

Reports change nothing, so a proof about an action looks only at its result: the answer and the
state it leaves.  An attempt goes on after an answer and stops at an error (`Attempt.result_bind`),
and what is done under the lock of a store comes to the same as without it, but for what locking and
unlocking do to the state (`Store.result_locked`).
-/

namespace AddressPool

variable {σ α β : Type}

theorem bind_eq_ok_iff {ε : Type} {x : Except ε α} {k : α → Except ε β} {b : β} :
    x >>= k = .ok b ↔ ∃ a, x = .ok a ∧ k a = .ok b := by
  cases x with
  | error e => exact iff_of_false (by rintro ⟨⟩) (by rintro ⟨a, ⟨⟩, -⟩)
  | ok a => exact ⟨fun h => ⟨a, rfl, h⟩, by rintro ⟨_, ⟨⟩, h⟩; exact h⟩

theorem ok_bind {ε : Type} (a : α) (k : α → Except ε β) : (Except.ok a >>= k) = k a := rfl

theorem exists_ok_of_toOption {ε : Type} {x : Except ε α} {f : α → β} {b : β}
    (h : x.toOption.map f = some b) : ∃ a, x = .ok a ∧ f a = b := by
  cases x with
  | error e => cases h
  | ok a => exact ⟨a, rfl, Option.some.inj h⟩

namespace Action

/-- The answer of an action and the state it leaves. -/
def result (m : Action σ α) (s : σ) : α × σ :=
  ((m s).value, (m s).state)

@[simp]
theorem result_pure (a : α) (s : σ) : result (pure a : Action σ α) s = (a, s) := rfl

@[simp]
theorem result_bind (m : Action σ α) (k : α → Action σ β) (s : σ) :
    result (m >>= k) s = result (k (result m s).1) (result m s).2 := rfl

@[simp]
theorem result_map (f : α → β) (m : Action σ α) (s : σ) :
    result (f <$> m) s = (f (result m s).1, (result m s).2) := rfl

@[simp]
theorem result_report (level : Level) (message : String) (s : σ) :
    result (report level message) s = ((), s) := rfl

end Action

namespace Attempt

/-- The answer or the error of an attempt, and the state it leaves. -/
def result (m : Attempt σ α) (s : σ) : Except Error α × σ :=
  Action.result m.verdict s

@[simp]
theorem result_verdict (m : Attempt σ α) (s : σ) : Action.result m.verdict s = result m s := rfl

@[simp]
theorem result_ofVerdict (m : Action σ (Except Error α)) (s : σ) :
    result (ofVerdict m) s = Action.result m s := rfl

theorem result_ofVerdict_apply (f : σ → Outcome σ (Except Error α)) (s : σ) :
    result (ofVerdict f) s = ((f s).value, (f s).state) := rfl

@[simp]
theorem result_pure (a : α) (s : σ) : result (pure a : Attempt σ α) s = (.ok a, s) := rfl

@[simp]
theorem result_ofExcept (e : Except Error α) (s : σ) : result (ofExcept e) s = (e, s) := rfl

@[simp]
theorem result_lift (m : Action σ α) (s : σ) :
    result (ExceptT.lift m) s = (.ok (Action.result m s).1, (Action.result m s).2) := rfl

@[simp]
theorem result_report (level : Level) (message : String) (s : σ) :
    result (report level message) s = (.ok (), s) := rfl

theorem result_bind (m : Attempt σ α) (k : α → Attempt σ β) (s : σ) :
    result (m >>= k) s =
      match result m s with
      | (.ok a, s) => result (k a) s
      | (.error e, s) => (.error e, s) := by
  have hrun : result (m >>= k) s =
      Action.result (ExceptT.bindCont k (result m s).1) (result m s).2 := rfl
  rw [hrun]
  rcases result m s with ⟨_ | _, _⟩ <;> rfl

theorem result_bind_of_ok {m : Attempt σ α} {s s' : σ} {a : α} (h : result m s = (.ok a, s'))
    (k : α → Attempt σ β) : result (m >>= k) s = result (k a) s' := by
  rw [result_bind, h]

theorem result_bind_of_error {m : Attempt σ α} {s s' : σ} {e : Error}
    (h : result m s = (.error e, s')) (k : α → Attempt σ β) :
    result (m >>= k) s = (.error e, s') := by
  rw [result_bind, h]

end Attempt

namespace Store

open Attempt

@[simp]
theorem result_relinquish (store : Store σ) (s : σ) :
    Action.result store.relinquish s = ((), (result store.unlock s).2) := by
  rw [relinquish, Action.result_bind, result_verdict]
  rcases result store.unlock s with ⟨_ | _, _⟩ <;> rfl

theorem result_locked (store : Store σ) (body : Attempt σ α) (s : σ) :
    result (store.locked body) s =
      match result store.lock s with
      | (.ok _, s) => ((result body s).1, (result store.unlock (result body s).2).2)
      | (.error e, s) => (.error e, s) := by
  rw [locked, result_bind]
  rcases result store.lock s with ⟨_ | _, s'⟩
  · rfl
  · simp

end Store

end AddressPool
