import AddressPool.Proofs.Store.Alike
import AddressPool.Proofs.Store.Disk.Frame
import Mathlib.Tactic

/-!
# What calls for a network leave alone

A call for addresses works in the directory of its store, and there on reservations of the owner and
on the markers of its sets, however far it comes, whatever fails on the way and whatever it has to take
back (`allocateAll_confined`).  To give up all sets touches no marker (`releaseAll_confined`).
-/

namespace AddressPool

open AddressPool.Files Allocation Attempt

variable {d : Disk} {place : Place} {t t₀ : Tree} {markers : Nat}

/-- **The operations of a store keep to the files of one owner and the markers of the sets.** -/
theorem Disk.keeps_confined (hlead : t₀.LeadsTo d.directory place) (hnames : t₀.WellNamed)
    (f : Faults) (owner : String) (markers : Nat) :
    (d.store f).Keeps (Confined place owner markers t₀) {owner} {i | i < markers} where
  lock t ht := by
    have hlock : (d.store f).lock = Lockfile.lock d.lockfile f := rfl
    rw [hlock, Lockfile.lock, result_ofVerdict_apply]
    dsimp only
    split <;> exact ht
  unlock t ht := by
    have hunlock : (d.store f).unlock = Lockfile.unlock d.lockfile f := rfl
    rw [hunlock, Lockfile.unlock, result_ofVerdict_apply]
    dsimp only
    split <;> exact ht
  reserve := by
    rintro _ rfl a setId hmarker t ht
    exact ht.trans (confined_reserve (hlead.mono ht.directories.kept) hmarker f _ a)
  lastReserved _ _ t ht := ht
  releaseOwner := by
    rintro _ rfl t ht
    exact ht.trans
      (confined_releaseOwner (hlead.mono ht.directories.kept) (ht.wellNamed hnames) f _)

/-- **A call for addresses changes reservations of the owner and the markers of its sets, whether it
fails or not.** -/
theorem allocateAll_confined (hlead : t.LeadsTo d.directory place) (hnames : t.WellNamed)
    (f : Faults) (sets : List RangeSet) (owner : String) (requested : List Address) :
    Disk.Confined place owner sets.length t
      (result (allocateAll (d.store f) sets owner requested) t).2 := by
  have hkeeps := Disk.keeps_confined hlead hnames f owner sets.length
  refine keeps_acquireEach hkeeps rfl _ _ _ _ (fun pool hpool => ?_) (.refl place owner _ t)
  have hid := List.mem_map_of_mem (f := Pool.id) hpool
  rwa [map_id_pools, List.mem_range] at hid

/-- **To give up all sets changes reservations of the owner alone.** -/
theorem releaseAll_confined (hlead : t.LeadsTo d.directory place) (hnames : t.WellNamed)
    (f : Faults) (sets : List RangeSet) (owner : String) :
    Disk.Confined place owner 0 t (result (releaseAll (d.store f) sets owner) t).2 := by
  have hkeeps := Disk.keeps_confined hlead hnames f owner 0
  have hreleased := keeps_releaseFailures hkeeps rfl (pools sets) (.refl place owner 0 t)
  rw [releaseAll, result_ofVerdict, Action.result_bind]
  cases (Action.result (releaseFailures (d.store f) owner (pools sets)) t).1 <;> exact hreleased

end AddressPool
