import AddressPool.Proofs.Allocation.All
import AddressPool.Proofs.Store.Disk
import Mathlib.Tactic

/-!
# Allocation on disk

An attempt to get an address from one set on disk reserves the address and answers with its lease,
or it changes nothing, or it stops between the two files of a reservation (`Pool.acquired`).  Which
of these it was is told by the answer, since nothing else fails to be written.

When a call for addresses from all sets fails, the sets that gave theirs are released, and with them
what the failing set left half made (`Allocation.acquireEach_error_onDisk`).  There is nothing to
release when it is the first set that fails (`allocateAll_error_onDisk`).
-/

namespace AddressPool

open AddressPool.Files Attempt

namespace Disk

open Lockfile (failed)

variable {d : Disk} {t t₀ u : Tree} {place : Place} {owner : String} {a : Address} {setId : Nat}

/-- The failure of a reservation that stopped after its file was made. -/
def halfway (d : Disk) (setId : Nat) (fault : Fault) : Error :=
  failed "write" (d.path (markerName setId)) fault

/-- What an attempt that reserves one address comes to on the tree. -/
inductive Acquired {α : Type} (d : Disk) (place : Place) (owner : String) (setId : Nat) (t : Tree) :
    Except Error α → Tree → Prop
  | won (x : α) (a : Address) (u : Tree) : Reserved d place owner a setId t (.ok true) u →
      Acquired d place owner setId t (.ok x) u
  | declined (e : Error) : (∀ fault, e ≠ d.halfway setId fault) →
      Acquired d place owner setId t (.error e) t
  | stopped (a : Address) (fault : Fault) : t.node? (place ++ [a.file]) = none →
      t.target (d.path a.file) = .ok (.entry place a.file false) →
      (t.put (place ++ [a.file]) (.file (bytesOf (Text.trim owner)))).write
        (d.path (markerName setId)) (bytesOf a.text) = .error fault →
      Acquired d place owner setId t (.error (d.halfway setId fault))
        (t.put (place ++ [a.file]) (.file (bytesOf (Text.trim owner))))

theorem Added.acquired {α : Type} (h : Added d place owner t₀ t) {r : Except Error α}
    (hacquired : Acquired d place owner setId t r u) : Added d place owner t₀ u := by
  cases hacquired with
  | won x a u hreserved => exact h.reserved hreserved
  | declined e he => exact h
  | stopped a fault hfree htarget hwrite => exact h.put_reservation hfree htarget

theorem failed_create_ne_halfway (path : Path) (fault fault' : Fault) :
    failed "create" path fault ≠ d.halfway setId fault' := by
  intro h
  rw [halfway, failed, failed, Error.storage.injEq] at h
  have hchars := congrArg String.toList h.1
  simp [String.toList_append] at hchars

end Disk

namespace Pool

variable {d : Disk} {t t₀ : Tree} {place : Place} {pool : Pool}

/-! ### One set -/

theorem acquired_reserveAmong (hlead : t.LeadsTo d.directory place) (owner : String)
    (ps : List (Position pool.set)) :
    result (pool.reserveAmong d.store owner ps) t = (.ok none, t) ∨
      ∃ (r : Except Error (Position pool.set)) (u : Tree),
        result (pool.reserveAmong d.store owner ps) t = (r.map some, u) ∧
          d.Acquired place owner pool.id t r u := by
  induction ps with
  | nil => exact Or.inl rfl
  | cons p ps ih =>
    have hreserved := Disk.reserved hlead owner p.address pool.id
    rw [reserveAmong, result_bind]
    rcases hresult : result (d.store.reserve owner p.address pool.id) t with ⟨r, u⟩
    rw [hresult] at hreserved
    cases hreserved with
    | taken => exact ih
    | refused fault =>
      exact Or.inr ⟨.error _, _, rfl, .declined _ (Disk.failed_create_ne_halfway _ _)⟩
    | stopped fault hfree htarget hwrite =>
      exact Or.inr ⟨.error _, _, rfl, .stopped p.address fault hfree htarget hwrite⟩
    | won content hfree htarget hmarker =>
      exact Or.inr ⟨.ok p, _, rfl, .won p p.address _ (.won content hfree htarget hmarker)⟩

theorem acquired_reserveNext (hs : pool.set.Sound) (hlead : t.LeadsTo d.directory place)
    (owner : String) :
    d.Acquired place owner pool.id t (result (pool.reserveNext d.store owner) t).1
      (result (pool.reserveNext d.store owner) t).2 := by
  rw [result_reserveNext hs, Disk.result_lastReserved]
  dsimp only
  rcases acquired_reserveAmong hlead owner
    (pool.set.candidatesAfter (d.lastReserved pool.id t).toOption) with
    hnone | ⟨r, u, hr, hacquired⟩
  · rw [hnone]
    exact .declined _ fun _ => Error.noConfusion
  · rw [hr]
    cases r <;> exact hacquired

theorem acquired_reserveRequested (hlead : t.LeadsTo d.directory place) (owner : String)
    (a : Address) :
    d.Acquired place owner pool.id t (result (pool.reserveRequested d.store owner a) t).1
      (result (pool.reserveRequested d.store owner a) t).2 := by
  rw [result_reserveRequested, RangeSet.lookup]
  cases pool.set.find? a with
  | none => exact .declined _ fun _ => Error.noConfusion
  | some i =>
    dsimp only
    split_ifs
    · exact .declined _ fun _ => Error.noConfusion
    · have hreserved := Disk.reserved hlead owner a pool.id
      rcases hresult : result (d.store.reserve owner a pool.id) t with ⟨r, u⟩
      rw [hresult] at hreserved
      cases hreserved with
      | taken => exact .declined _ fun _ => Error.noConfusion
      | refused fault => exact .declined _ (Disk.failed_create_ne_halfway _ _)
      | stopped fault hfree htarget hwrite => exact .stopped a fault hfree htarget hwrite
      | won content hfree htarget hmarker =>
        exact .won _ a _ (.won content hfree htarget hmarker)

theorem acquired_reserveFor (hs : pool.set.Sound) (hlead : t.LeadsTo d.directory place)
    (owner : String) (requested : Option Address) :
    d.Acquired place owner pool.id t (result (pool.reserveFor d.store owner requested) t).1
      (result (pool.reserveFor d.store owner requested) t).2 := by
  cases requested with
  | none => exact acquired_reserveNext hs hlead owner
  | some a => exact acquired_reserveRequested hlead owner a.canonical

/-- **What an attempt to get an address from one set comes to on disk.** -/
theorem acquired_acquire (hs : pool.set.Sound) (hlead : t.LeadsTo d.directory place)
    (owner : String) (requested : Option Address) :
    d.Acquired place owner pool.id t (result (pool.acquire d.store owner requested) t).1
      (result (pool.acquire d.store owner requested) t).2 := by
  have hacquired := acquired_reserveFor hs hlead owner requested
  rw [result_acquire_eq, Disk.result_lock]
  dsimp only
  rcases hfor : result (pool.reserveFor d.store owner requested) t with ⟨e | p, u⟩
  · rw [hfor] at hacquired
    dsimp only at hacquired ⊢
    rw [Disk.result_unlock]
    cases hacquired with
    | declined _ he => exact .declined _ he
    | stopped a fault hfree htarget hwrite => exact .stopped a fault hfree htarget hwrite
  · obtain ⟨l, hl, -⟩ := lease_of_spanned hs (spanned_of_reserveFor hs hfor)
    rw [hfor] at hacquired
    dsimp only at hacquired ⊢
    rw [Disk.result_unlock, hl]
    cases hacquired with
    | won _ a _ hreserved => exact .won l a u hreserved

theorem result_release_onDisk (d : Disk) (pool : Pool) (owner : String) (t : Tree) :
    result (pool.release d.store owner) t = result (d.releaseOwner owner) t := by
  have howner : d.store.releaseOwner owner = d.releaseOwner owner := rfl
  rw [release, Store.result_locked, Disk.result_lock]
  dsimp only
  rw [Disk.result_unlock, result_bind, howner]
  rcases result (d.releaseOwner owner) t with ⟨_ | _, u⟩ <;> rfl

theorem release_onDisk (pool : Pool) {owner : String} (hlead : t₀.LeadsTo d.directory place)
    (h : d.Added place owner t₀ t) :
    Tree.SameDirectories t₀ (result (pool.release d.store owner) t).2 ∧
      Disk.NoNewReservation t₀ (result (pool.release d.store owner) t).2 := by
  rw [result_release_onDisk]
  exact Disk.releaseOwner_spec hlead h

end Pool

namespace Allocation

variable {d : Disk} {t t₀ u : Tree} {place : Place} {owner : String} {phase : Phase}
  {given pools : List Pool} {waiting : List Address} {e : Error}

/-! ### One set after the other -/

theorem releaseEach_onDisk (hlead : t₀.LeadsTo d.directory place)
    (h : d.Added place owner t₀ t) (given : List Pool) :
    Tree.SameDirectories t₀ (Action.result (releaseEach d.store owner given) t).2 ∧
      (given ≠ [] →
        Disk.NoNewReservation t₀ (Action.result (releaseEach d.store owner given) t).2) := by
  induction given generalizing t with
  | nil => exact ⟨h.directories, fun hgiven => absurd rfl hgiven⟩
  | cons pool given ih =>
    obtain ⟨hsame, hfresh⟩ := pool.release_onDisk hlead h
    rw [result_releaseEach_cons]
    obtain ⟨hsame', hfresh'⟩ := ih (.of_noNewReservation hsame hfresh)
    refine ⟨hsame', fun _ => ?_⟩
    rcases given with _ | ⟨_, _⟩
    · exact hfresh
    · exact hfresh' (List.cons_ne_nil _ _)

/-- **A call that fails after a set gave an address leaves no reservation of its own.** -/
theorem acquireEach_error_onDisk (hlead : t₀.LeadsTo d.directory place)
    (hsound : ∀ pool ∈ pools, pool.set.Sound) (hgiven : given ≠ [])
    (hadded : d.Added place owner t₀ t)
    (h : Action.result (acquireEach d.store owner phase given waiting pools) t = (.error e, u)) :
    Tree.SameDirectories t₀ u ∧ Disk.NoNewReservation t₀ u := by
  -- what is carried along is that only files of the owner were added since the first set
  induction pools generalizing phase given waiting t with
  | nil =>
    obtain ⟨-, rfl⟩ := acquireEach_nil_error h
    obtain ⟨hsame, hfresh⟩ := releaseEach_onDisk hlead hadded given
    exact ⟨hsame, hfresh hgiven⟩
  | cons pool pools ih =>
    obtain ⟨hs, hsound⟩ := List.forall_mem_cons.mp hsound
    have hacquired := Pool.acquired_acquire hs (hlead.mono hadded.directories.kept) owner
      (waiting.find? pool.set.contains)
    rcases acquireEach_cons_error h with ⟨cause, t₁, hacquire, -, rfl⟩ | ⟨l, t₁, hacquire, hrest⟩
    · rw [hacquire] at hacquired
      obtain ⟨hsame, hfresh⟩ := releaseEach_onDisk hlead (hadded.acquired hacquired) given
      exact ⟨hsame, hfresh hgiven⟩
    · rw [hacquire] at hacquired
      exact ih hsound (by simp) (hadded.acquired hacquired) hrest

end Allocation

open Allocation

/-! ### All sets of a network -/

/-- A call stopped halfway through a reservation in its first set, and the file that it made is
still there. -/
inductive Disk.LeftHalfway (d : Disk) (place : Place) (owner : String) (t : Tree) :
    Error → Tree → Prop
  | intro (a : Address) (fault : Fault) : t.node? (place ++ [a.file]) = none →
      (t.put (place ++ [a.file]) (.file (bytesOf (Text.trim owner)))).write
        (d.path (Disk.markerName 0)) (bytesOf a.text) = .error fault →
      LeftHalfway d place owner t (.allocation 0 (d.halfway 0 fault))
        (t.put (place ++ [a.file]) (.file (bytesOf (Text.trim owner))))

/-- **A call that fails leaves no reservation of its own, except when it stopped halfway through one
in its first set.** -/
theorem allocateAll_error_onDisk {sets : List RangeSet} (hsets : ∀ s ∈ sets, s.Canonicalized)
    {d : Disk} {t u : Tree} {place : Place} (hlead : t.LeadsTo d.directory place) {owner : String}
    {requested : List Address} {e : Error}
    (h : result (allocateAll d.store sets owner requested) t = (.error e, u)) :
    Disk.NoNewReservation t u ∧ (∀ fault, e ≠ .allocation 0 (d.halfway 0 fault)) ∨
      d.LeftHalfway place owner t e u := by
  have hsound : ∀ pool ∈ pools sets, pool.set.Sound :=
    fun _ hpool => (hsets _ (set_mem_of_mem_pools hpool)).sound
  change Action.result (acquireEach d.store owner .pending [] (requests requested) (pools sets)) t =
    (.error e, u) at h
  cases sets with
  | nil =>
    obtain ⟨rfl, rfl⟩ := acquireEach_nil_error h
    exact Or.inl ⟨.refl _, fun _ => Error.noConfusion⟩
  | cons first sets =>
    have hnodup : ((pools (first :: sets)).map Pool.id).Nodup := by
      rw [map_id_pools]
      exact List.nodup_range
    obtain ⟨rest, hpools⟩ : ∃ rest, pools (first :: sets) = ⟨first, 0⟩ :: rest :=
      ⟨_, List.mapIdx_cons⟩
    rw [hpools] at h hsound hnodup
    obtain ⟨hs, hsound⟩ := List.forall_mem_cons.mp hsound
    have hacquired := Pool.acquired_acquire hs hlead owner
      ((requests requested).find? first.contains)
    rcases acquireEach_cons_error h with ⟨cause, t₁, hacquire, rfl, rfl⟩ | ⟨l, t₁, hacquire, hrest⟩
    · rw [hacquire] at hacquired
      cases hacquired with
      | declined _ hcause =>
        refine Or.inl ⟨.refl _, fun fault hfault => hcause fault ?_⟩
        cases hfault
        rfl
      | stopped a fault hfree _ hwrite => exact Or.inr ⟨a, fault, hfree, hwrite⟩
    · rw [hacquire] at hacquired
      -- the sets behind the first have other numbers
      have hzero : 0 ∉ rest.map Pool.id := (List.nodup_cons.mp hnodup).1
      refine Or.inl ⟨(acquireEach_error_onDisk hlead hsound (by simp)
        ((Disk.Added.refl t).acquired hacquired) hrest).2, ?_⟩
      rintro fault rfl
      exact hzero (id_mem_of_acquireEach_error hrest)

end AddressPool
