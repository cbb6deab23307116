import AddressPool.Proofs.Allocation.All
import AddressPool.Proofs.Calls
import Mathlib.Tactic

/-!
# Stores that cannot be told apart

Two stores are alike if their operations, on states that are related, give the same answers and
leave related states.  The address of a set that was reserved last needs to be the same only up to
canonical form, since nothing else of it is looked at (`Walk.after_eq`).  Whatever is
built from the operations of a store then comes to the same on both, calls and whole histories of
calls included (`Store.Alike.history`).
-/

namespace AddressPool

variable {σ τ α β : Type} {R : σ → τ → Prop}

/-! ### Actions -/

/-- Two actions on related states answer the same and leave related states. -/
def Action.Alike (R : σ → τ → Prop) (x : Action σ α) (y : Action τ α) : Prop :=
  ∀ s t, R s t → (result x s).1 = (result y t).1 ∧ R (result x s).2 (result y t).2

def Attempt.Alike (R : σ → τ → Prop) (x : Attempt σ α) (y : Attempt τ α) : Prop :=
  Action.Alike R x.verdict y.verdict

namespace Action.Alike

theorem pure (a : α) : Alike R (pure a : Action σ α) (pure a : Action τ α) :=
  fun _ _ h => ⟨rfl, h⟩

theorem report (level : Level) (message : String) :
    Alike R (report level message : Action σ Unit) (report level message : Action τ Unit) :=
  fun _ _ h => ⟨rfl, h⟩

theorem bind {x : Action σ α} {y : Action τ α} {k : α → Action σ β} {l : α → Action τ β}
    (hx : Alike R x y) (hk : ∀ a, Alike R (k a) (l a)) : Alike R (x >>= k) (y >>= l) := by
  intro s t h
  obtain ⟨hanswer, hstate⟩ := hx s t h
  rw [result_bind, result_bind, hanswer]
  exact hk _ _ _ hstate

end Action.Alike

namespace Attempt.Alike

theorem pure (a : α) : Alike R (pure a : Attempt σ α) (pure a : Attempt τ α) :=
  fun _ _ h => ⟨rfl, h⟩

theorem ofExcept (e : Except Error α) :
    Alike R (ofExcept e : Attempt σ α) (ofExcept e : Attempt τ α) :=
  fun _ _ h => ⟨rfl, h⟩

theorem report (level : Level) (message : String) :
    Alike R (report level message : Attempt σ Unit) (report level message : Attempt τ Unit) :=
  fun _ _ h => ⟨rfl, h⟩

theorem throw (e : Error) :
    Alike R (throw e : Attempt σ α) (throw e : Attempt τ α) :=
  fun _ _ h => ⟨rfl, h⟩

theorem lift {x : Action σ α} {y : Action τ α} (hxy : Action.Alike R x y) :
    Alike R (ExceptT.lift x) (ExceptT.lift y) := by
  intro s t h
  obtain ⟨hanswer, hstate⟩ := hxy s t h
  exact ⟨congrArg Except.ok hanswer, hstate⟩

theorem bind {x : Attempt σ α} {y : Attempt τ α} {k : α → Attempt σ β} {l : α → Attempt τ β}
    (hx : Alike R x y) (hk : ∀ a, Alike R (k a) (l a)) : Alike R (x >>= k) (y >>= l) := by
  apply Action.Alike.bind hx
  intro r
  cases r with
  | error e => exact Action.Alike.pure _
  | ok a => exact hk a

end Attempt.Alike

/-! ### Stores -/

/-- The operations of two stores are alike, for the given owners and sets with the given numbers;
the addresses reserved last may differ in form. -/
structure Store.Alike (R : σ → τ → Prop) (owners : Set String) (ids : Set Nat) (store : Store σ)
    (other : Store τ) : Prop where
  lock : Attempt.Alike R store.lock other.lock
  unlock : Attempt.Alike R store.unlock other.unlock
  reserve : ∀ owner ∈ owners, ∀ (a : Address), ∀ setId ∈ ids,
    Attempt.Alike R (store.reserve owner a setId) (other.reserve owner a setId)
  lastReserved : ∀ setId ∈ ids, ∀ s t, R s t →
    (Attempt.result (store.lastReserved setId) s).1.map Address.canonical =
      (Attempt.result (other.lastReserved setId) t).1.map Address.canonical ∧
    R (Attempt.result (store.lastReserved setId) s).2 (Attempt.result (other.lastReserved setId) t).2
  releaseOwner : ∀ owner ∈ owners,
    Attempt.Alike R (store.releaseOwner owner) (other.releaseOwner owner)

namespace Store.Alike

variable {owners : Set String} {ids : Set Nat} {store : Store σ} {other : Store τ}

theorem relinquish (h : store.Alike R owners ids other) :
    Action.Alike R store.relinquish other.relinquish := by
  apply Action.Alike.bind h.unlock
  intro r
  cases r with
  | error e => exact .report _ _
  | ok u => exact .pure _

theorem locked (h : store.Alike R owners ids other) {x : Attempt σ α} {y : Attempt τ α}
    (hxy : Attempt.Alike R x y) : Attempt.Alike R (store.locked x) (other.locked y) := by
  apply Attempt.Alike.bind h.lock
  intro _
  apply Action.Alike.bind hxy
  intro r
  exact Action.Alike.bind h.relinquish fun _ => .pure _

end Store.Alike

/-- The operations of a store keep a property of its states, for the given owners and sets with the
given numbers. -/
structure Store.Keeps (P : σ → Prop) (owners : Set String) (ids : Set Nat) (store : Store σ) :
    Prop where
  lock : ∀ s, P s → P (Attempt.result store.lock s).2
  unlock : ∀ s, P s → P (Attempt.result store.unlock s).2
  reserve : ∀ owner ∈ owners, ∀ (a : Address), ∀ setId ∈ ids, ∀ s, P s →
    P (Attempt.result (store.reserve owner a setId) s).2
  lastReserved : ∀ setId ∈ ids, ∀ s, P s → P (Attempt.result (store.lastReserved setId) s).2
  releaseOwner : ∀ owner ∈ owners, ∀ s, P s → P (Attempt.result (store.releaseOwner owner) s).2

theorem Store.Keeps.alike {P : σ → Prop} {owners : Set String} {ids : Set Nat} {store : Store σ}
    (h : store.Keeps P owners ids) :
    store.Alike (fun s t => s = t ∧ P s) owners ids store where
  lock := by
    rintro s _ ⟨rfl, hs⟩
    exact ⟨rfl, rfl, h.lock s hs⟩
  unlock := by
    rintro s _ ⟨rfl, hs⟩
    exact ⟨rfl, rfl, h.unlock s hs⟩
  reserve := by
    rintro owner howner a setId hid s _ ⟨rfl, hs⟩
    exact ⟨rfl, rfl, h.reserve owner howner a setId hid s hs⟩
  lastReserved := by
    rintro setId hid s _ ⟨rfl, hs⟩
    exact ⟨rfl, rfl, h.lastReserved setId hid s hs⟩
  releaseOwner := by
    rintro owner howner s _ ⟨rfl, hs⟩
    exact ⟨rfl, rfl, h.releaseOwner owner howner s hs⟩

/-! ### One set -/

theorem Walk.after_eq (s : RangeSet) {x y : Except Error Address}
    (h : x.map Address.canonical = y.map Address.canonical) :
    after s x.toOption = after s y.toOption := by
  cases x with
  | error e =>
    cases y with
    | error e' => rfl
    | ok b => cases h
  | ok a =>
    cases y with
    | error e' => cases h
    | ok b =>
      have hab : a.canonical = b.canonical := Except.ok.inj h
      simp only [after, Except.toOption, hab]

namespace Pool

variable {owners : Set String} {ids : Set Nat} {store : Store σ} {other : Store τ} {pool : Pool}
  {owner : String}

theorem alike_walk (h : store.Alike R owners ids other) (hid : pool.id ∈ ids) :
    Action.Alike R (pool.walk store) (pool.walk other) := by
  intro s t hst
  obtain ⟨hanswer, hstate⟩ := h.lastReserved pool.id hid s t hst
  rw [result_walk, result_walk]
  exact ⟨Walk.after_eq pool.set hanswer, hstate⟩

theorem alike_reserveFirst (h : store.Alike R owners ids other) (howner : owner ∈ owners)
    (hid : pool.id ∈ ids) (most : Nat) (w : Walk pool.set) (log log' : Log) :
    Action.Alike R (fun s => pool.reserveFirst store owner most w s log)
      (fun t => pool.reserveFirst other owner most w t log') := by
  intro s t hst
  induction most generalizing w s t log log' with
  | zero => exact ⟨rfl, hst⟩
  | succ most ih =>
    unfold reserveFirst
    rcases hnext : w.next with ⟨_ | p, w'⟩
    · exact ⟨rfl, hst⟩
    · obtain ⟨hanswer, hstate⟩ := h.reserve owner howner p.address pool.id hid s t hst
      simp only [Action.result] at hanswer hstate ih ⊢
      rw [hanswer]
      rcases ((other.reserve owner p.address pool.id).verdict t).value with _ | _ | _
      · exact ⟨rfl, hstate⟩
      · exact ih w' _ _ _ _ hstate
      · exact ⟨rfl, hstate⟩

theorem alike_reserveNext (h : store.Alike R owners ids other) (howner : owner ∈ owners)
    (hid : pool.id ∈ ids) :
    Attempt.Alike R (pool.reserveNext store owner) (pool.reserveNext other owner) := by
  unfold reserveNext
  refine .bind (.lift (alike_walk h hid)) fun w => ?_
  refine .bind (alike_reserveFirst h howner hid _ w #[] #[]) fun found? => ?_
  cases found? with
  | none => exact .throw _
  | some p => exact .pure p

theorem alike_reserveRequested (h : store.Alike R owners ids other) (howner : owner ∈ owners)
    (hid : pool.id ∈ ids) (a : Address) :
    Attempt.Alike R (pool.reserveRequested store owner a) (pool.reserveRequested other owner a) := by
  unfold reserveRequested
  refine .bind (.ofExcept _) fun i => ?_
  dsimp only
  split_ifs
  · exact .throw _
  · refine .bind (h.reserve owner howner a pool.id hid) fun won => ?_
    cases won with
    | true => exact .pure _
    | false => exact .throw _

theorem alike_reserveFor (h : store.Alike R owners ids other) (howner : owner ∈ owners)
    (hid : pool.id ∈ ids) (requested : Option Address) :
    Attempt.Alike R (pool.reserveFor store owner requested)
      (pool.reserveFor other owner requested) := by
  cases requested with
  | none => exact alike_reserveNext h howner hid
  | some a => exact alike_reserveRequested h howner hid a.canonical

/-- **A set gives the same on stores that are alike.** -/
theorem alike_acquire (h : store.Alike R owners ids other) (howner : owner ∈ owners)
    (hid : pool.id ∈ ids) (requested : Option Address) :
    Attempt.Alike R (pool.acquire store owner requested) (pool.acquire other owner requested) := by
  rw [acquire_eq, acquire_eq]
  apply h.locked
  refine .bind (alike_reserveFor h howner hid requested) fun p => ?_
  exact .bind (.report _ _) fun _ => .ofExcept _

theorem alike_release (h : store.Alike R owners ids other) (howner : owner ∈ owners) :
    Attempt.Alike R (pool.release store owner) (pool.release other owner) := by
  apply h.locked
  exact .bind (h.releaseOwner owner howner) fun _ => .report _ _

end Pool

/-! ### All sets of a network -/

namespace Allocation

variable {owners : Set String} {ids : Set Nat} {store : Store σ} {other : Store τ}
  {owner : String}

theorem alike_releaseEach (h : store.Alike R owners ids other) (howner : owner ∈ owners)
    (pools : List Pool) :
    Action.Alike R (releaseEach store owner pools) (releaseEach other owner pools) := by
  induction pools with
  | nil => exact .pure ()
  | cons pool pools ih =>
    unfold releaseEach
    refine .bind (Pool.alike_release h howner) fun r => ?_
    cases r with
    | error e => exact .bind (.report _ _) fun _ => ih
    | ok u => exact ih

theorem alike_rollBack (h : store.Alike R owners ids other) (howner : owner ∈ owners) (phase : Phase)
    (given : List Pool) (cause : Error) :
    Action.Alike R (rollBack store owner phase given cause)
      (rollBack other owner phase given cause) := by
  refine .bind (.report _ _) fun _ => ?_
  refine .bind (alike_releaseEach h howner given) fun _ => ?_
  exact .bind (.report _ _) fun _ => .pure cause

theorem alike_acquireEach (h : store.Alike R owners ids other) (howner : owner ∈ owners)
    (phase : Phase) (given pools : List Pool) (waiting : List Address)
    (hids : ∀ pool ∈ pools, pool.id ∈ ids) :
    Action.Alike R (acquireEach store owner phase given waiting pools)
      (acquireEach other owner phase given waiting pools) := by
  induction pools generalizing phase given waiting with
  | nil =>
    unfold acquireEach
    split_ifs
    · exact .bind (.report _ _) fun _ => .pure _
    · exact .bind (alike_rollBack h howner _ given _) fun _ => .pure _
  | cons pool pools ih =>
    obtain ⟨hid, hids⟩ := List.forall_mem_cons.mp hids
    unfold acquireEach
    refine .bind (.report _ _) fun _ => ?_
    dsimp only
    refine .bind (Pool.alike_acquire h howner hid _) fun r => ?_
    cases r with
    | error e => exact .bind (alike_rollBack h howner _ given _) fun _ => .pure _
    | ok l => exact .bind (ih _ _ _ hids) fun _ => .pure _

theorem alike_releaseFailures (h : store.Alike R owners ids other) (howner : owner ∈ owners)
    (pools : List Pool) :
    Action.Alike R (releaseFailures store owner pools) (releaseFailures other owner pools) := by
  induction pools with
  | nil => exact .pure []
  | cons pool pools ih =>
    unfold releaseFailures
    refine .bind (Pool.alike_release h howner) fun r => ?_
    exact .bind ih fun _ => .pure _

/-! What a store keeps is kept by whatever is built from its operations. -/

variable {P : σ → Prop} {s : σ}

theorem keeps_acquireEach (h : store.Keeps P owners ids) (howner : owner ∈ owners) (phase : Phase)
    (given pools : List Pool) (waiting : List Address) (hids : ∀ pool ∈ pools, pool.id ∈ ids)
    (hs : P s) : P (Action.result (acquireEach store owner phase given waiting pools) s).2 :=
  (alike_acquireEach h.alike howner phase given pools waiting hids s s ⟨rfl, hs⟩).2.2

theorem keeps_releaseFailures (h : store.Keeps P owners ids) (howner : owner ∈ owners)
    (pools : List Pool) (hs : P s) : P (Action.result (releaseFailures store owner pools) s).2 :=
  (alike_releaseFailures h.alike howner pools s s ⟨rfl, hs⟩).2.2

end Allocation

/-! ### Calls -/

variable {owners : Set String} {ids : Set Nat} {store : Store σ} {other : Store τ}

/-- The numbers of the sets that a call may reserve an address for. -/
def Call.setIds : Call → Set Nat
  | reserve _ _ setId => {setId}
  | acquire pool .. => {pool.id}
  | acquireAll sets .. => {i | i < sets.length}
  | free _ | freeOwner _ | release .. | releaseAll .. => ∅

/-- **A call comes to the same on stores that are alike.**  To free a single address is not one of
the operations in which they are. -/
theorem Call.alike_run (h : store.Alike R .univ ids other) (c : Call) (hids : c.setIds ⊆ ids)
    (hfree : ∀ a, c ≠ .free a) : Attempt.Alike R (c.run store) (c.run other) := by
  cases c with
  | reserve owner a setId => exact .bind (h.reserve owner trivial a setId (hids rfl)) fun _ => .pure _
  | free a => exact absurd rfl (hfree a)
  | freeOwner owner => exact .bind (h.releaseOwner owner trivial) fun _ => .pure _
  | acquire pool owner requested =>
    exact .bind (Pool.alike_acquire h trivial (hids rfl) requested) fun _ => .pure _
  | release pool owner => exact .bind (Pool.alike_release h trivial) fun _ => .pure _
  | acquireAll sets owner requested =>
    refine .bind (Allocation.alike_acquireEach h trivial _ _ _ _ ?_) fun _ => .pure _
    intro pool hpool
    apply hids
    show pool.id < sets.length
    rw [← List.mem_range, ← map_id_pools]
    exact List.mem_map_of_mem hpool
  | releaseAll sets owner =>
    apply Attempt.Alike.bind
    · refine Action.Alike.bind (Allocation.alike_releaseFailures h trivial _) fun causes => ?_
      cases causes <;> exact .pure _
    · exact fun _ => .pure _

end AddressPool
