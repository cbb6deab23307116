import AddressPool.Proofs.Allocation.Granted
import AddressPool.Proofs.Allocation.OnDisk
import AddressPool.Proofs.Store.Disk.Files
import Mathlib.Tactic

/-!
# What giving up all sets removes from a directory

All sets of a network share a directory, so that to release the first of them removes everything that
the owner has there, and the others find nothing.  Neither does a second call that gives everything up
(`releaseAll_onDisk`).
-/

namespace AddressPool

open AddressPool.Files Allocation Attempt

namespace Disk

variable {d : Disk} {place : Place} {owner : String} {t u : Tree}

theorem Released.old (h : d.Released place owner (t.children place) t u) {name : Name} {node : Node}
    (hnode : u.node? (place ++ [name]) = some node) : t.node? (place ++ [name]) = some node := by
  rw [← hnode]
  symm
  apply h.kept
  intro name' hmem hholds heq
  rw [← heq, h.gone name' hmem hholds] at hnode
  cases hnode

theorem Released.not_holds (h : d.Released place owner (t.children place) t u) (name : Name) :
    ¬ d.Holds place u owner name := by
  rintro ⟨hreaches, node, hnode, hreservation⟩
  have hold := h.old hnode
  have hholds : d.Holds place t owner name :=
    ⟨hreaches.mono h.directories.old, node, hold, hreservation⟩
  rw [h.gone name (Tree.mem_children.mpr ⟨_, hold⟩) hholds] at hnode
  cases hnode

theorem Released.children (h : d.Released place owner (t.children place) t u) :
    u.children place ⊆ t.children place := by
  intro name hmem
  obtain ⟨node, hnode⟩ := Tree.mem_children.mp hmem
  exact Tree.mem_children.mpr ⟨node, h.old hnode⟩

theorem Released.releaseOwner_again
    (h : d.Released place owner (t.children place) t u)
    (hlead : t.LeadsTo d.directory place) (hnames : ProperNames (t.children place)) :
    result (d.releaseOwner owner) u = (.ok (), u) := by
  have hlead' := hlead.mono h.directories.kept
  apply result_releaseOwner_of_none hlead'
  intro name hmem
  rw [← Bool.not_eq_true, isHeldBy_iff hlead' (hnames name (h.children hmem))]
  exact h.not_holds name

end Disk

variable {d : Disk} {place : Place} {owner : String} {t u : Tree}

theorem Allocation.result_releaseFailures_of_idle
    (h : result (d.releaseOwner owner) t = (.ok (), t)) (pools : List Pool) :
    Action.result (releaseFailures d.store owner pools) t = ([], t) := by
  induction pools with
  | nil => rfl
  | cons pool pools ih =>
    rw [result_releaseFailures_cons, Pool.result_release_onDisk, h]
    exact ih

theorem Allocation.result_releaseFailures_onDisk {pools : List Pool} (hpools : pools ≠ [])
    (h : result (d.releaseOwner owner) t = (.ok (), u))
    (hagain : result (d.releaseOwner owner) u = (.ok (), u)) :
    Action.result (releaseFailures d.store owner pools) t = ([], u) := by
  cases pools with
  | nil => exact absurd rfl hpools
  | cons pool pools =>
    rw [result_releaseFailures_cons, Pool.result_release_onDisk, h]
    exact result_releaseFailures_of_idle hagain pools

/-- **Giving up all sets removes the reservations of the owner, and no others, and a second time it
changes nothing.** -/
theorem releaseAll_onDisk {sets : List RangeSet} (hsets : sets ≠ [])
    (hlead : t.LeadsTo d.directory place) (hnames : Disk.ProperNames (t.children place))
    (owner : String) :
    ∃ u, result (releaseAll d.store sets owner) t = (.ok (), u) ∧
      d.Released place owner (t.children place) t u ∧
      result (releaseAll d.store sets owner) u = (.ok (), u) := by
  have hpools : pools sets ≠ [] := by simpa [pools] using hsets
  obtain ⟨u, hrelease, hreleased⟩ := Disk.released_releaseOwner hlead hnames owner
  have hagain := hreleased.releaseOwner_again hlead hnames
  refine ⟨u, ?_, hreleased, ?_⟩
  · rw [releaseAll, result_ofVerdict, Action.result_bind,
      result_releaseFailures_onDisk hpools hrelease hagain]
    rfl
  · rw [releaseAll, result_ofVerdict, Action.result_bind,
      result_releaseFailures_of_idle hagain]
    rfl

end AddressPool
