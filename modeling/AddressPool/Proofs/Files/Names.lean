import AddressPool.Proofs.Files.Tree
import Mathlib.Tactic

/-!
# Names of files

What is in a directory has a name without slashes, which is none of the names of dots and not too
long (`FileName`).  A tree of which this is true stays so, since the names that operations add come
from paths (`Tree.fileName_of_target`).
-/

namespace AddressPool.Files

/-- The bytes can be the name of something in a directory. -/
structure FileName (name : Name) : Prop extends IsName name where
  dots : name ≠ "." ∧ name ≠ ".."
  nul : 0 ∉ name
  length : name.length ≤ Tree.longestName

theorem fileName_iff {name : Name} : FileName name ↔
    (slash ∉ name ∧ name ≠ []) ∧ (name ≠ "." ∧ name ≠ "..") ∧ 0 ∉ name ∧
      name.length ≤ Tree.longestName :=
  ⟨fun h => ⟨⟨h.slash, h.nonempty⟩, h.dots, h.nul, h.length⟩,
    fun ⟨⟨hslash, hnonempty⟩, hdots, hnul, hlength⟩ => ⟨⟨hslash, hnonempty⟩, hdots, hnul, hlength⟩⟩

instance (name : Name) : Decidable (FileName name) :=
  decidable_of_iff _ fileName_iff.symm

/-! ### Names of paths -/

theorem mem_splitOn {α : Type} [DecidableEq α] {sep : α} {xs piece : List α}
    (h : piece ∈ xs.splitOn sep) : sep ∉ piece ∧ piece ⊆ xs := by
  induction xs generalizing piece with
  | nil =>
    rw [List.splitOn_nil, List.mem_singleton] at h
    subst h
    simp
  | cons x xs ih =>
    rw [List.splitOn_cons_eq_if_modifyHead] at h
    split_ifs at h with hx
    · rcases List.mem_cons.mp h with rfl | h
      · simp
      · exact ⟨(ih h).1, List.subset_cons_of_subset x (ih h).2⟩
    · cases hpieces : xs.splitOn sep with
      | nil => exact absurd hpieces (List.splitOn_ne_nil _ _)
      | cons first rest =>
        rw [hpieces] at ih h
        rw [List.modifyHead_cons, List.mem_cons] at h
        rcases h with rfl | h
        · obtain ⟨hsep, hsub⟩ := ih List.mem_cons_self
          refine ⟨?_, List.cons_subset_cons x hsub⟩
          rw [List.mem_cons, not_or]
          exact ⟨fun heq => hx (beq_iff_eq.mpr heq.symm), hsep⟩
        · obtain ⟨hsep, hsub⟩ := ih (List.mem_cons_of_mem _ h)
          exact ⟨hsep, List.subset_cons_of_subset x hsub⟩

theorem mem_names {path : Path} {name : Name} (h : name ∈ names path) :
    IsName name ∧ name ⊆ path := by
  rw [names, parts, List.mem_filter] at h
  obtain ⟨hslash, hsub⟩ := mem_splitOn h.1
  exact ⟨⟨hslash, by simpa using h.2⟩, hsub⟩

namespace Tree

variable {t u : Tree} {place : Place} {path name : Name} {node : Node}

theorem follow_entry {slash slash' : Bool} {start : Place} {names : List Name}
    (h : t.follow slash start names = .ok (.entry place name slash')) :
    name ∈ names ∧ (name ≠ "." ∧ name ≠ "..") ∧ name.length ≤ longestName := by
  induction names generalizing start with
  | nil => cases h
  | cons first names ih =>
    cases names with
    | nil =>
      rw [follow] at h
      split_ifs at h with hdot hdots hlong
      · cases h
      · cases h
      · cases h
        exact ⟨List.mem_singleton_self _, ⟨hdot, hdots⟩, Nat.le_of_not_lt hlong⟩
    | cons second names =>
      rw [follow] at h
      · obtain ⟨next, -, hrest⟩ := bind_eq_ok_iff.mp h
        obtain ⟨hmem, hname⟩ := ih hrest
        exact ⟨List.mem_cons_of_mem _ hmem, hname⟩
      · simp

/-- **A path leads to nothing but names that there can be.** -/
theorem fileName_of_target {slash : Bool} (h : t.target path = .ok (.entry place name slash)) :
    FileName name := by
  have hnul : 0 ∉ path := by
    unfold target at h
    split_ifs at h with hnul
    simpa using hnul
  obtain ⟨hmem, hdots, hlength⟩ := follow_entry (follow_of_target h)
  obtain ⟨hname, hsub⟩ := mem_names hmem
  exact ⟨hname, hdots, fun hmem' => hnul (hsub hmem'), hlength⟩

/-! ### Trees -/

/-- What is in the directories of a tree has names that there can be. -/
def WellNamed (t : Tree) : Prop :=
  ∀ place name node, t.node? (place ++ [name]) = some node → FileName name

namespace WellNamed

theorem empty : Tree.empty.WellNamed := by
  intro place name node hnode
  rw [node?, if_neg (by simp), Tree.empty, Std.ExtTreeMap.getElem?_empty] at hnode
  cases hnode

theorem put (h : t.WellNamed) (hname : FileName name) : (t.put (place ++ [name]) node).WellNamed := by
  intro place' name' node' hnode
  rw [node?_put (by simp)] at hnode
  split_ifs at hnode with heq
  · obtain ⟨-, hlast⟩ := List.append_inj' heq rfl
    cases hlast
    exact hname
  · exact h place' name' node' hnode

theorem erase (h : t.WellNamed) (hplace : place ≠ []) : (t.erase place).WellNamed := by
  intro place' name' node' hnode
  rw [node?_erase hplace] at hnode
  split_ifs at hnode
  exact h place' name' node' hnode

theorem put_of_forall (h : t.WellNamed) (hplace : place ≠ []) (hnames : ∀ name ∈ place, FileName name)
    (node : Node) : (t.put place node).WellNamed := by
  obtain ⟨before, name, rfl⟩ := (List.eq_nil_or_concat place).resolve_left hplace
  rw [List.concat_eq_append] at hnames ⊢
  exact h.put (hnames name (by simp))

theorem makeDirectory (h : t.WellNamed) (hmake : t.makeDirectory path = .ok u) : u.WellNamed := by
  obtain ⟨x, hx, hnode⟩ := bind_eq_ok_iff.mp hmake
  cases x with
  | directory => cases hnode
  | entry place name slash =>
    dsimp only at hnode
    split at hnode
    · cases hnode
    · cases hnode
      exact h.put (fileName_of_target hx)

variable {f : Faults}

theorem settle (h : t.WellNamed) (path : Path) : (t.settle path f
    (f.guarded .makeDirectory path t (t.makeDirectory path))).2.WellNamed := by
  cases hmade : f.guarded .makeDirectory path t (t.makeDirectory path) with
  | ok u => exact h.makeDirectory (Faults.done_of_guarded hmade)
  | error fault =>
    rw [Tree.settle]
    split_ifs <;> exact h

theorem makeEach (h : t.WellNamed) (paths : List Path) :
    (t.makeEach paths f).2.WellNamed := by
  induction paths with
  | nil => exact h
  | cons path shorter ih =>
    rw [Tree.makeEach]
    split
    · split
      · rename_i hshorter
        rwa [hshorter] at ih
      · rename_i u hshorter
        rw [hshorter] at ih
        exact ih.settle path
    · exact h.settle path

end WellNamed

end Tree

end AddressPool.Files
