import AddressPool.Proofs.Store.Disk.Owners
import AddressPool.Proofs.Store.Memory
import Mathlib.Tactic

/-!
# What stores know addresses by

A store knows an address by its text: as the name of a file, as what is in the marker of a set, and
as a key.  The files of a store on disk are for one thing each, and no two things have one name
(`Disk.Purpose.name_injective`), so what is done to one of them is no matter for another
(`Disk.lookup_reserve`).  What is in a marker is read back as the address that was reserved
(`Disk.lastReserved_of_reserve`).
-/

namespace AddressPool

open AddressPool.Files AddressPool.Text Attempt

namespace Disk

/-- What a file of a store is for. -/
inductive Purpose where
  | lock
  | marker (setId : Nat)
  | reservation (a : Address)

namespace Purpose

def name : Purpose → Name
  | lock => Lockfile.name
  | marker setId => markerName setId
  | reservation a => a.file

theorem isName (p : Purpose) : IsName p.name := by
  cases p with
  | lock => exact isName_lock
  | marker setId => exact isName_markerName setId
  | reservation a => exact a.isName_file

theorem name_ne_dots (p : Purpose) : p.name ≠ "." ∧ p.name ≠ ".." := by
  cases p with
  | lock => exact ne_dots_of_not_reservationName not_reservationName_lock
  | marker setId => exact markerName_ne_dots setId
  | reservation a => exact a.file_ne_dots

theorem name_injective : Function.Injective name := by
  have hlock : ∀ a : Address, a.file ≠ lock.name := fun _ => file_ne not_reservationName_lock
  have hmarker : ∀ (a : Address) (i : Nat), a.file ≠ (marker i).name := fun _ i =>
    file_ne (not_reservationName_markerName i)
  intro p q h
  cases p with
  | lock =>
    cases q with
    | lock => rfl
    | marker j => exact absurd h.symm (markerName_ne_lock j)
    | reservation b => exact absurd h.symm (hlock b)
  | marker i =>
    cases q with
    | lock => exact absurd h (markerName_ne_lock i)
    | marker j => rw [markerName_injective h]
    | reservation b => exact absurd h.symm (hmarker b i)
  | reservation a =>
    cases q with
    | lock => exact absurd h (hlock a)
    | marker j => exact absurd h (hmarker a j)
    | reservation b => rw [Address.file_injective h]

end Purpose

variable {d : Disk} {t u : Tree} {p q : Purpose} {owner : String} {a : Address} {setId : Nat}

/-! ### Paths and places -/

theorem path_injective (h : d.path p.name = d.path q.name) : p = q := by
  have hnames := congrArg names h
  rw [path, path, names_join p.isName, names_join q.isName] at hnames
  exact Purpose.name_injective (List.singleton_inj.mp (List.append_cancel_left hnames))

theorem place_injective {x y : Tree.Target} (hx : t.target (d.path p.name) = .ok x)
    (hy : u.target (d.path q.name) = .ok y) (h : x.place = y.place) : p = q := by
  obtain ⟨place, -, rfl⟩ := Tree.enter_of_target_join p.isName p.name_ne_dots hx
  obtain ⟨place', -, rfl⟩ := Tree.enter_of_target_join q.isName q.name_ne_dots hy
  obtain ⟨-, hname⟩ := List.append_inj' h rfl
  exact Purpose.name_injective (List.singleton_inj.mp hname)

/-! ### One file after another -/

theorem lookup_of_changedAt {place : Place} {name : Name}
    (htarget : t.target (d.path q.name) = .ok (.entry place name false))
    (h : Tree.ChangedAt (place ++ [name]) t u) (hne : p ≠ q) :
    u.lookup (d.path p.name) = t.lookup (d.path p.name) := by
  obtain ⟨before, hbefore, hentry⟩ := Tree.enter_of_target_join q.isName q.name_ne_dots htarget
  cases hentry
  exact h.lookup_join hbefore p.isName p.name_ne_dots fun hname => hne (Purpose.name_injective hname)

theorem lookup_create {content : Content} (h : t.create (d.path q.name) content = .ok u)
    (hne : p ≠ q) : u.lookup (d.path p.name) = t.lookup (d.path p.name) := by
  obtain ⟨place, name, htarget, hfree, rfl⟩ := Tree.create_ok h
  exact lookup_of_changedAt htarget (Tree.changedAt_put (by simp [hfree]) content) hne

theorem lookup_write {content : Content} (h : t.write (d.path q.name) content = .ok u)
    (hne : p ≠ q) : u.lookup (d.path p.name) = t.lookup (d.path p.name) := by
  obtain ⟨place, name, htarget, hnode, rfl⟩ := Tree.write_ok h
  exact lookup_of_changedAt htarget (Tree.changedAt_put hnode content) hne

theorem lookup_remove (h : t.remove (d.path q.name) = .ok u) (hne : p ≠ q) :
    u.lookup (d.path p.name) = t.lookup (d.path p.name) := by
  obtain ⟨place, name, htarget, hnode, rfl⟩ := Tree.remove_ok h
  exact lookup_of_changedAt htarget (Tree.changedAt_erase hnode) hne

/-- **A reservation is no matter for a file that is neither for its address nor for its set.** -/
theorem lookup_reserve (ha : p ≠ .reservation a) (hset : p ≠ .marker setId) (owner : String)
    (t : Tree) : (result (d.store.reserve owner a setId) t).2.lookup (d.path p.name) =
      t.lookup (d.path p.name) := by
  rw [result_reserve]
  split
  · rfl
  · rfl
  · rename_i u hcreate
    have hmade : u.lookup (d.path p.name) = t.lookup (d.path p.name) :=
      @lookup_create d t u p (.reservation a) _ hcreate ha
    split
    · exact hmade
    · rename_i v hwrite
      have hwritten : v.lookup (d.path p.name) = u.lookup (d.path p.name) :=
        @lookup_write d u v p (.marker setId) _ hwrite hset
      exact hwritten.trans hmade

theorem lookup_release (ha : p ≠ .reservation a) (t : Tree) :
    (result (d.store.release a) t).2.lookup (d.path p.name) = t.lookup (d.path p.name) := by
  have hrelease : d.store.release a = d.release a := rfl
  rw [hrelease, release, result_ofVerdict_apply]
  dsimp only
  rw [Faults.guarded_default]
  split
  · rfl
  · rename_i u hremove
    exact @lookup_remove d t u p (.reservation a) hremove ha

/-! ### Markers -/

theorem lastReserved_of_readText {gap back : List Char} (hgap : Gap gap) (hback : Gap back)
    (h : t.readText (d.path (markerName setId)) =
      .ok (String.ofList gap ++ a.text ++ String.ofList back)) :
    d.lastReserved setId t = .ok a.canonical := by
  unfold lastReserved
  simp only [Faults.guarded_default, h, Address.read?_surrounded hgap hback a]

theorem readText_of_reserve (h : result (d.store.reserve owner a setId) t = (.ok true, u)) :
    u.readText (d.path (markerName setId)) = .ok a.text := by
  rw [result_reserve] at h
  split at h
  · cases h
  · cases h
  · split at h
    · cases h
    · cases h
      exact Tree.readText_of_write ‹_›

theorem lastReserved_of_reserve (h : result (d.store.reserve owner a setId) t = (.ok true, u)) :
    result (d.store.lastReserved setId) u = (.ok a.canonical, u) := by
  have hread : u.readText (d.path (markerName setId)) =
      .ok (String.ofList [] ++ a.text ++ String.ofList []) := by
    simpa using readText_of_reserve h
  have hgap : Gap [] := List.forall_mem_nil _
  rw [result_lastReserved, lastReserved_of_readText hgap hgap hread]

end Disk

/-- **Stores tell addresses apart by their texts, and read them back from these.** -/
theorem Address.text_faithful :
    (∀ (a : Address) (gap back : List Char), Gap gap → Gap back →
      read? (String.ofList gap ++ a.text ++ String.ofList back) = some a.canonical) ∧
    Function.Injective text ∧
    (∀ (d : Disk) (t u : Tree) (owner : String) (a : Address) (setId : Nat),
      result (d.store.reserve owner a setId) t = (.ok true, u) →
        u.readText (d.path (Disk.markerName setId)) = .ok a.text ∧
        result (d.store.lastReserved setId) u = (.ok a.canonical, u)) ∧
    (∀ (d : Disk) (p q : Disk.Purpose), p ≠ q → d.path p.name ≠ d.path q.name ∧
      ∀ (t u : Tree) (x y : Tree.Target), t.target (d.path p.name) = .ok x →
        u.target (d.path q.name) = .ok y → x.place ≠ y.place) ∧
    (∀ (d : Disk) (p : Disk.Purpose) (a : Address), p ≠ .reservation a → ∀ t : Tree,
      (result (d.store.release a) t).2.lookup (d.path p.name) = t.lookup (d.path p.name) ∧
      ∀ (owner : String) (setId : Nat), p ≠ .marker setId →
        (result (d.store.reserve owner a setId) t).2.lookup (d.path p.name) =
          t.lookup (d.path p.name)) ∧
    ∀ (m : Memory) (a b : Address), a ≠ b → (m.release a).owner? b = m.owner? b ∧
      ∀ (owner : String) (setId : Nat), (m.reserve owner a setId).2.owner? b = m.owner? b := by
  refine ⟨?_, fun _ _ => text_injective, ?_, ?_, ?_, ?_⟩
  · intro a gap back hgap hback
    exact read?_surrounded hgap hback a
  · intro d t u owner a setId h
    exact ⟨Disk.readText_of_reserve h, Disk.lastReserved_of_reserve h⟩
  · intro d p q hne
    exact ⟨fun h => hne (Disk.path_injective h),
      fun t u x y hx hy h => hne (Disk.place_injective hx hy h)⟩
  · intro d p a ha t
    exact ⟨Disk.lookup_release ha t, fun owner setId hset => Disk.lookup_reserve ha hset owner t⟩
  · intro m a b hne
    refine ⟨?_, fun owner setId => Memory.owner?_reserve_of_ne owner setId hne⟩
    rw [Memory.owner?_release, if_neg hne]

/-- An address of the longer family that stands for one of the shorter. -/
def Address.longForm : Address := .ofNat .v6 0xFFFF0A000005

theorem Address.text_faithful_longForm :
    Gap ['\u3000'] ∧ Gap ['\n'] ∧
    read? "\u3000::ffff:10.0.0.5\n" = some (.ofNat .v4 0x0A000005) ∧
    (∃ u, result (Disk.poolDisk.store.reserve "dummy" longForm 1) Disk.poolTree = (.ok true, u) ∧
      result (Disk.poolDisk.store.lastReserved 1) u = (.ok (.ofNat .v4 0x0A000005), u)) ∧
    (∃ x y, Disk.poolTree.target (Disk.poolDisk.path "::ffff:10.0.0.5") = .ok x ∧
      Disk.poolTree.target (Disk.poolDisk.path "lock") = .ok y ∧ x.place ≠ y.place) ∧
    (result (Disk.poolDisk.store.release longForm) Disk.poolTree).2.lookup "/pool/10.0.0.2" =
      Disk.poolTree.lookup "/pool/10.0.0.2" ∧
    (result (Disk.poolDisk.store.reserve "dummy" longForm 1) Disk.poolTree).2.lookup
        "/pool/10.0.0.2" = Disk.poolTree.lookup "/pool/10.0.0.2" ∧
    longForm ≠ .ofNat .v4 0x0A000005 ∧
    ((({} : Memory).reserve "dummy" longForm 1).2.owner? (.ofNat .v4 0x0A000005) = none) := by
  obtain ⟨hread, -, hmarker, hplaces, hfiles, hkeys⟩ := Address.text_faithful
  have hgap : Gap ['\u3000'] := by decide
  have hback : Gap ['\n'] := by decide
  have hcanonical : longForm.canonical = .ofNat .v4 0x0A000005 := by decide
  have hreaches : Disk.poolDisk.Reaches ["pool"] Disk.poolTree longForm.file :=
    Disk.reaches_of_size_le Disk.leadsTo_poolTree (Disk.fileName_file _) (by decide)
  have hlock : Disk.poolDisk.Reaches ["pool"] Disk.poolTree Lockfile.name :=
    Disk.reaches_of_size_le Disk.leadsTo_poolTree (by decide) (by decide)
  have hmarkerReaches : Disk.poolDisk.Reaches ["pool"] Disk.poolTree (Disk.markerName 1) :=
    Disk.reaches_of_size_le Disk.leadsTo_poolTree (by decide) (by decide)
  have hreserve : result (Disk.poolDisk.store.reserve "dummy" longForm 1) Disk.poolTree =
      (.ok true, Disk.reservedIn ["pool"] "dummy" longForm 1 Disk.poolTree) :=
    (Disk.reserve_eq_true_iff Disk.leadsTo_poolTree).mpr
      ⟨hreaches, hmarkerReaches, by decide +kernel, by decide +kernel, rfl⟩
  have hother : Disk.Purpose.reservation (.ofNat .v4 0x0A000002) ≠ .reservation longForm :=
    fun h => absurd (Disk.Purpose.reservation.inj h) (by decide)
  have hne : longForm ≠ .ofNat .v4 0x0A000005 := by decide
  refine ⟨hgap, hback, ?_, ⟨_, hreserve, ?_⟩, ⟨_, _, hreaches, hlock, ?_⟩, ?_, ?_, hne, ?_⟩
  · rw [← hcanonical, ← hread longForm _ _ hgap hback]
    rfl
  · rw [← hcanonical]
    exact (hmarker _ _ _ _ _ _ hreserve).2
  · exact (hplaces _ (.reservation longForm) .lock nofun).2 _ _ _ _ hreaches hlock
  · exact (hfiles Disk.poolDisk _ _ hother Disk.poolTree).1
  · exact (hfiles Disk.poolDisk _ _ hother Disk.poolTree).2 "dummy" 1 nofun
  · exact (hkeys {} _ _ hne).2 "dummy" 1

end AddressPool
