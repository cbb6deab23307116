import AddressPool.Files.Faults
import AddressPool.Proofs.Action
import AddressPool.Proofs.Files.Path
import AddressPool.Proofs.Text.Bytes
import Mathlib.Tactic

/-!
# Trees that differ in files

Where a path leads is a matter of directories alone, and stays so when there are more of them
(`DirectoriesIn.target`).  Making and removing files keeps the directories (`Tree.SameDirectories`),
and making directories adds those to which some paths lead (`Tree.Ways`).  A name behind the path of
a directory leads to that name in the directory (`Tree.target_join`), and what is at one such name is
no matter for another one (`Tree.ChangedAt.lookup_join`).
-/

namespace AddressPool.Files

theorem Faults.done_of_guarded {α : Type} {f : Faults} {access : Access} {path : Path} {t : Tree}
    {done : Except Fault α} {a : α} (h : f.guarded access path t done = .ok a) : done = .ok a := by
  rw [guarded] at h
  split at h
  · cases h
  · exact h

theorem Faults.guarded_default {α : Type} (access : Access) (path : Path) (t : Tree)
    (done : Except Fault α) : Faults.guarded {} access path t done = done := rfl

theorem Faults.write_default (t : Tree) (path : Path) (content : Content) :
    Faults.write {} t path content = match t.write path content with
      | .error fault => (.error fault, t)
      | .ok u => (.ok (), u) := by
  unfold Faults.write
  cases t.write path content <;> rfl

namespace Tree

variable {t u v : Tree} {place other : Place} {node : Node}

/-! ### What is at a place -/

theorem ext_getElem? (h : ∀ p : Place, t.nodes[p]? = u.nodes[p]?) : t = u :=
  congrArg Tree.mk (Std.ExtTreeMap.ext_getElem? fun {p} => h p)

theorem node?_put (hplace : place ≠ []) :
    (t.put place node).node? other = if place = other then some node else t.node? other := by
  rw [node?, put, node?, Std.ExtTreeMap.getElem?_insert]
  simp only [Std.LawfulEqOrd.compare_eq_iff_eq]
  by_cases hother : other = []
  · rw [if_pos hother, if_pos hother, if_neg fun h => hplace (h.trans hother)]
  · rw [if_neg hother, if_neg hother]

theorem node?_erase (hplace : place ≠ []) :
    (t.erase place).node? other = if place = other then none else t.node? other := by
  rw [node?, erase, node?, Std.ExtTreeMap.getElem?_erase]
  simp only [Std.LawfulEqOrd.compare_eq_iff_eq]
  by_cases hother : other = []
  · rw [if_pos hother, if_pos hother, if_neg fun h => hplace (h.trans hother)]
  · rw [if_neg hother, if_neg hother]

theorem mem_children {name : Name} :
    name ∈ t.children place ↔ ∃ node, t.node? (place ++ [name]) = some node := by
  rw [children, List.mem_filterMap]
  constructor
  · rintro ⟨⟨other, node⟩, hmem, hname⟩
    dsimp only at hname
    split_ifs at hname with hother
    have hsplit : other = place ++ [name] := by
      rw [← hother]
      exact (List.dropLast_append_getLast? name hname).symm
    refine ⟨node, ?_⟩
    rw [node?, if_neg (by simp), ← hsplit]
    exact Std.ExtTreeMap.mem_toList_iff_getElem?_eq_some.mp hmem
  · rintro ⟨node, hnode⟩
    rw [node?, if_neg (by simp)] at hnode
    refine ⟨(place ++ [name], node), Std.ExtTreeMap.mem_toList_iff_getElem?_eq_some.mpr hnode, ?_⟩
    simp

theorem ne_nil_of_node? (h : t.node? place ≠ some .directory) : place ≠ [] := by
  rintro rfl
  exact h rfl

/-! ### Directories -/

/-- What is a directory in one tree is one in another. -/
def DirectoriesIn (t u : Tree) : Prop :=
  ∀ place, t.node? place = some .directory → u.node? place = some .directory

namespace DirectoriesIn

theorem enter (h : DirectoriesIn t u) {name : Name} (hother : t.enter place name = .ok other) :
    u.enter place name = .ok other := by
  unfold Tree.enter at hother ⊢
  split_ifs at hother ⊢
  · exact hother
  · exact hother
  · split at hother
    · cases hother
    · cases hother
    · rw [h _ ‹_›]
      exact hother

theorem follow (h : DirectoriesIn t u) {slash : Bool} {names : List Name} {x : Target}
    (hx : t.follow slash place names = .ok x) : u.follow slash place names = .ok x := by
  induction names generalizing place with
  | nil => exact hx
  | cons name names ih =>
    cases names with
    | nil => exact hx
    | cons name' names =>
      rw [Tree.follow, bind_eq_ok_iff] at hx ⊢
      · obtain ⟨next, hnext, hrest⟩ := hx
        exact ⟨next, h.enter hnext, ih hrest⟩
      · simp
      · simp

theorem foldlM_enter (h : DirectoriesIn t u) {names : List Name}
    (hother : names.foldlM t.enter place = .ok other) :
    names.foldlM u.enter place = .ok other := by
  induction names generalizing place with
  | nil => exact hother
  | cons name names ih =>
    rw [List.foldlM_cons, bind_eq_ok_iff] at hother ⊢
    obtain ⟨next, hnext, hrest⟩ := hother
    exact ⟨next, h.enter hnext, ih hrest⟩

/-- **Where a path leads is a matter of directories.** -/
theorem target (h : DirectoriesIn t u) {path : Path} {x : Target}
    (hx : t.target path = .ok x) : u.target path = .ok x := by
  unfold Tree.target at hx ⊢
  split_ifs at hx ⊢
  exact h.follow hx

end DirectoriesIn

/-- Two trees have directories at the same places. -/
structure SameDirectories (t u : Tree) : Prop where
  kept : DirectoriesIn t u
  old : DirectoriesIn u t

namespace SameDirectories

theorem refl (t : Tree) : SameDirectories t t :=
  ⟨fun _ h => h, fun _ h => h⟩

theorem trans (h : SameDirectories t u) (h' : SameDirectories u v) : SameDirectories t v :=
  ⟨fun place hplace => h'.kept place (h.kept place hplace),
    fun place hplace => h.old place (h'.old place hplace)⟩

theorem put_file (h : t.node? place ≠ some .directory) (content : Content) :
    SameDirectories t (t.put place (.file content)) := by
  have hplace := ne_nil_of_node? h
  refine ⟨fun other hother => ?_, fun other hother => ?_⟩
  · rwa [node?_put hplace, if_neg (by rintro rfl; exact h hother)]
  · rw [node?_put hplace] at hother
    split_ifs at hother
    · cases hother
    · exact hother

theorem erase_file (h : t.node? place ≠ some .directory) :
    SameDirectories t (t.erase place) := by
  have hplace := ne_nil_of_node? h
  refine ⟨fun other hother => ?_, fun other hother => ?_⟩
  · rwa [node?_erase hplace, if_neg (by rintro rfl; exact h hother)]
  · rw [node?_erase hplace] at hother
    split_ifs at hother
    exact hother

end SameDirectories

/-! ### Names in a directory -/

/-- A target is a directory that is there. -/
def Target.Settles (t : Tree) (place : Place) : Target → Prop
  | .directory there => there = place
  | .entry before name _ => before ++ [name] = place ∧ t.node? place = some .directory

/-- A path leads to a directory at a place. -/
def LeadsTo (t : Tree) (path : Path) (place : Place) : Prop :=
  t.lookup path = .ok (place, .directory)

theorem LeadsTo.unique {path : Path} (h : t.LeadsTo path place) (h' : t.LeadsTo path other) :
    other = place := by
  rw [LeadsTo, h] at h'
  cases h'
  rfl

theorem leadsTo_iff {path : Path} :
    t.LeadsTo path place ↔ ∃ x, t.target path = .ok x ∧ x.Settles t place := by
  rw [LeadsTo, lookup, bind_eq_ok_iff]
  refine exists_congr fun x => and_congr_right fun _ => ?_
  cases x with
  | directory there =>
    constructor
    · intro hnode
      cases hnode
      rfl
    · rintro rfl
      rfl
  | entry before name slash =>
    dsimp only
    constructor
    · intro hnode
      split at hnode
      · cases hnode
      · cases hnode
        exact ⟨rfl, ‹_›⟩
      · split_ifs at hnode
        cases hnode
    · rintro ⟨rfl, hnode⟩
      rw [hnode]

theorem LeadsTo.mono {path : Path} (hlead : t.LeadsTo path place) (h : DirectoriesIn t u) :
    u.LeadsTo path place := by
  obtain ⟨x, hx, hplace⟩ := leadsTo_iff.mp hlead
  refine leadsTo_iff.mpr ⟨x, h.target hx, ?_⟩
  cases x with
  | directory there => exact hplace
  | entry before name slash => exact ⟨hplace.1, h place hplace.2⟩

theorem follow_concat (slash : Bool) (names : List Name) (name : Name) :
    t.follow slash place (names ++ [name]) =
      names.foldlM t.enter place >>= fun place => t.follow slash place [name] := by
  induction names generalizing place with
  | nil => rfl
  | cons first names ih =>
    obtain ⟨second, rest, hrest⟩ := List.exists_cons_of_ne_nil
      (List.append_ne_nil_of_right_ne_nil names (List.cons_ne_nil name []))
    rw [List.cons_append, hrest, follow, ← hrest, List.foldlM_cons, bind_assoc]
    · exact bind_congr fun next => ih
    · simp

theorem follow_of_target {path : Path} {x : Target} (h : t.target path = .ok x) :
    t.follow (endsInSlash path) [] (names path) = .ok x := by
  unfold target at h
  split_ifs at h
  exact h

theorem enter_of_follow {slash : Bool} {before : Place} {name : Name} {x : Target}
    (hx : t.follow slash before [name] = .ok x) (hplace : x.Settles t place) :
    t.enter before name = .ok place := by
  rw [follow] at hx
  rw [enter]
  split_ifs at hx ⊢
  · cases hx
    rw [← hplace]
  · cases hx
    rw [← hplace]
  · cases hx
    obtain ⟨rfl, hnode⟩ := hplace
    rw [hnode]

theorem LeadsTo.foldlM_enter {path : Path} (h : t.LeadsTo path place) :
    (names path).foldlM t.enter [] = .ok place := by
  obtain ⟨x, hx, hplace⟩ := leadsTo_iff.mp h
  have hfollow := follow_of_target hx
  rcases List.eq_nil_or_concat (names path) with hnil | ⟨front, last, hconcat⟩
  · rw [hnil] at hfollow ⊢
    cases hfollow
    rw [← hplace]
    rfl
  · rw [List.concat_eq_append] at hconcat
    rw [hconcat, follow_concat, bind_eq_ok_iff] at hfollow
    obtain ⟨before, hbefore, hlast⟩ := hfollow
    rw [hconcat, List.foldlM_append, hbefore]
    change List.foldlM t.enter before [last] = _
    rw [List.foldlM_cons, enter_of_follow hlast hplace]
    rfl

theorem target_join_of_enter {path name : Name}
    (h : (names path).foldlM t.enter [] = .ok place) (hname : IsName name)
    (hdots : name ≠ "." ∧ name ≠ "..") :
    t.target (join path name) =
      if (join path name).contains 0 then .error .badPath
      else if longestPath < (join path name).length then .error .tooLong
      else if longestName < name.length then .error .tooLong
      else .ok (.entry place name false) := by
  have hnonempty : ¬ (join path name).isEmpty = true := by
    rw [List.isEmpty_iff]
    intro hempty
    have hnames : names (join path name) = names path ++ [name] := names_join hname
    rw [hempty] at hnames
    exact List.append_ne_nil_of_right_ne_nil _ (List.cons_ne_nil _ _) hnames.symm
  have hfollow : t.follow (endsInSlash (join path name)) [] (names (join path name)) =
      t.follow false place [name] := by
    rw [names_join hname, not_endsInSlash_join hname, follow_concat, h]
    rfl
  rw [target, hfollow, if_neg hnonempty, follow, if_neg hdots.1, if_neg hdots.2]

theorem target_join_eq {path name : Name} (h : t.LeadsTo path place) (hname : IsName name)
    (hdots : name ≠ "." ∧ name ≠ "..") :
    t.target (join path name) =
      if (join path name).contains 0 then .error .badPath
      else if longestPath < (join path name).length then .error .tooLong
      else if longestName < name.length then .error .tooLong
      else .ok (.entry place name false) :=
  target_join_of_enter h.foldlM_enter hname hdots

/-- **A name behind the path of a directory leads to that name in the directory.** -/
theorem target_join {path name : Name} (h : t.LeadsTo path place) (hname : IsName name)
    (hdots : name ≠ "." ∧ name ≠ "..") {x : Target} (hx : t.target (join path name) = .ok x) :
    x = .entry place name false := by
  rw [target_join_eq h hname hdots] at hx
  split_ifs at hx
  cases hx
  rfl

theorem enter_of_target_join {path name : Name} (hname : IsName name)
    (hdots : name ≠ "." ∧ name ≠ "..") {x : Target} (hx : t.target (join path name) = .ok x) :
    ∃ place, (names path).foldlM t.enter [] = .ok place ∧ x = .entry place name false := by
  have hfollow := follow_of_target hx
  rw [names_join hname, not_endsInSlash_join hname, follow_concat, bind_eq_ok_iff] at hfollow
  obtain ⟨place, hplace, hlast⟩ := hfollow
  rw [follow, if_neg hdots.1, if_neg hdots.2] at hlast
  split_ifs at hlast
  cases hlast
  exact ⟨place, hplace, rfl⟩

/-! ### Operations -/

variable {path name : Name} {content : Content}

theorem put_self (hplace : place ≠ []) (h : t.node? place = some node) : t.put place node = t := by
  rw [node?, if_neg hplace] at h
  refine ext_getElem? fun other => ?_
  rw [put, Std.ExtTreeMap.getElem?_insert]
  split_ifs with heq
  · rw [← Std.LawfulEqOrd.compare_eq_iff_eq.mp heq, h]
  · rfl

theorem lookup_eq (htarget : t.target path = .ok (.entry place name false)) :
    t.lookup path = match t.node? (place ++ [name]) with
      | none => .error .notFound
      | some node => .ok (place ++ [name], node) := by
  rw [lookup, htarget, ok_bind]
  dsimp only
  rcases t.node? (place ++ [name]) with _ | _ | _ <;> rfl

theorem create_of_present (htarget : t.target path = .ok (.entry place name false))
    (h : t.node? (place ++ [name]) = some node) : t.create path content = .error .present := by
  rw [create, htarget, ok_bind]
  dsimp only
  rw [h]

theorem create_of_free (htarget : t.target path = .ok (.entry place name false))
    (h : t.node? (place ++ [name]) = none) :
    t.create path content = .ok (t.put (place ++ [name]) (.file content)) := by
  rw [create, htarget, ok_bind]
  dsimp only
  rw [h]
  rfl

theorem write_eq (htarget : t.target path = .ok (.entry place name false))
    (h : t.node? (place ++ [name]) ≠ some .directory) :
    t.write path content = .ok (t.put (place ++ [name]) (.file content)) := by
  rw [write, change, htarget, ok_bind]
  rcases hnode : t.node? (place ++ [name]) with _ | _ | _
  · simp [hnode]
  · simp [hnode]
  · exact absurd hnode h

theorem touch_of_file (htarget : t.target path = .ok (.entry place name false))
    (h : t.node? (place ++ [name]) = some (.file content)) : t.touch path = .ok t := by
  have hput : t.put (place ++ [name]) (.file content) = t := put_self (by simp) h
  rw [touch, change, htarget, ok_bind]
  simp [h, hput]

theorem remove_of_file (htarget : t.target path = .ok (.entry place name false))
    (h : t.node? (place ++ [name]) = some (.file content)) :
    t.remove path = .ok (t.erase (place ++ [name])) := by
  rw [remove, htarget, ok_bind]
  simp [h]

theorem readText_of_file (htarget : t.target path = .ok (.entry place name false))
    (h : t.node? (place ++ [name]) = some (.file content)) {text : String}
    (htext : textOf? content = some text) : t.readText path = .ok text := by
  have hlookup : t.lookup path = .ok (place ++ [name], .file content) := by
    rw [lookup_eq htarget, h]
  rw [readText, read, hlookup, ok_bind, ok_bind]
  simp [htext]

theorem readText_ok {text : String} (h : t.readText path = .ok text) :
    ∃ place content, t.lookup path = .ok (place, .file content) ∧ textOf? content = some text := by
  obtain ⟨content, hread, htext⟩ := bind_eq_ok_iff.mp h
  obtain ⟨⟨place, node⟩, hlookup, hnode⟩ := bind_eq_ok_iff.mp hread
  cases node with
  | directory => cases hnode
  | file content' =>
    cases hnode
    refine ⟨place, content, hlookup, ?_⟩
    split at htext
    · cases htext
      assumption
    · cases htext

theorem create_ok (h : t.create path content = .ok u) :
    ∃ place name, t.target path = .ok (.entry place name false) ∧
      t.node? (place ++ [name]) = none ∧ u = t.put (place ++ [name]) (.file content) := by
  obtain ⟨x, hx, hnode⟩ := bind_eq_ok_iff.mp h
  cases x with
  | directory => cases hnode
  | entry place name slash =>
    dsimp only at hnode
    split at hnode
    · cases hnode
    · split_ifs at hnode with hslash
      cases hnode
      rw [Bool.not_eq_true] at hslash
      exact ⟨place, name, hslash ▸ hx, ‹_›, rfl⟩

theorem change_ok {f : Content → Content} (h : t.change path f = .ok u) :
    ∃ place name, t.target path = .ok (.entry place name false) ∧
      t.node? (place ++ [name]) ≠ some .directory ∧
      ∃ content, u = t.put (place ++ [name]) (.file content) := by
  obtain ⟨x, hx, hnode⟩ := bind_eq_ok_iff.mp h
  cases x with
  | directory => cases hnode
  | entry place name slash =>
    dsimp only at hnode
    split_ifs at hnode with hslash
    rw [Bool.not_eq_true] at hslash
    split at hnode
    · cases hnode
    · cases hnode
      exact ⟨place, name, hslash ▸ hx, by simp [*], _, rfl⟩
    · cases hnode
      exact ⟨place, name, hslash ▸ hx, by simp [*], _, rfl⟩

theorem write_ok (h : t.write path content = .ok u) :
    ∃ place name, t.target path = .ok (.entry place name false) ∧
      t.node? (place ++ [name]) ≠ some .directory ∧
      u = t.put (place ++ [name]) (.file content) := by
  obtain ⟨place, name, htarget, hnode, -⟩ := change_ok h
  rw [write_eq htarget hnode] at h
  cases h
  exact ⟨place, name, htarget, hnode, rfl⟩

theorem put_put (node' : Node) :
    (t.put place node).put place node' = t.put place node' := by
  refine ext_getElem? fun other => ?_
  simp only [put, Std.ExtTreeMap.getElem?_insert]
  split_ifs <;> rfl

theorem create_of_error {content' : Content} {fault : Fault}
    (h : t.create path content = .error fault) : t.create path content' = .error fault := by
  unfold create at h ⊢
  cases htarget : t.target path with
  | error fault' =>
    rw [htarget] at h
    exact h
  | ok x =>
    rw [htarget, ok_bind] at h
    rw [ok_bind]
    cases x with
    | directory there => exact h
    | entry place name slash =>
      dsimp only at h ⊢
      split at h
      · exact h
      · split_ifs at h ⊢
        exact h

theorem write_of_create (h : t.create path [] = .ok u) (content : Content) :
    ∃ v, u.write path content = .ok v ∧ t.create path content = .ok v := by
  obtain ⟨place, name, htarget, hfree, rfl⟩ := create_ok h
  have hsame : SameDirectories t (t.put (place ++ [name]) (.file [])) :=
    .put_file (by simp [hfree]) []
  have hnode : (t.put (place ++ [name]) (.file [])).node? (place ++ [name]) ≠
      some .directory := by
    rw [node?_put (by simp), if_pos rfl]
    simp
  refine ⟨_, write_eq (hsame.kept.target htarget) hnode, ?_⟩
  rw [put_put, create_of_free htarget hfree]

theorem readText_of_write {text : String} (h : t.write path (bytesOf text) = .ok u) :
    u.readText path = .ok text := by
  obtain ⟨place, name, htarget, hnode, rfl⟩ := write_ok h
  have hhere : (t.put (place ++ [name]) (.file (bytesOf text))).node? (place ++ [name]) =
      some (.file (bytesOf text)) := by
    rw [node?_put (by simp), if_pos rfl]
  exact readText_of_file ((SameDirectories.put_file hnode _).kept.target htarget) hhere
    (textOf?_bytesOf text)

theorem touch_ok (h : t.touch path = .ok u) :
    u = t ∨ ∃ place name, t.target path = .ok (.entry place name false) ∧
      t.node? (place ++ [name]) = none ∧ u = t.put (place ++ [name]) (.file []) := by
  obtain ⟨place, name, htarget, hnode, -⟩ := change_ok h
  rcases hthere : t.node? (place ++ [name]) with _ | _ | _
  · have hmade := htarget
    rw [touch, change, htarget, ok_bind] at h
    simp only [Bool.false_eq_true, if_false, hthere] at h
    exact Or.inr ⟨place, name, hmade, hthere, (Except.ok.inj h).symm⟩
  · rw [touch_of_file htarget hthere] at h
    exact Or.inl (Except.ok.inj h).symm
  · exact absurd hthere hnode

theorem remove_ok (h : t.remove path = .ok u) :
    ∃ place name, t.target path = .ok (.entry place name false) ∧
      t.node? (place ++ [name]) ≠ some .directory ∧ u = t.erase (place ++ [name]) := by
  obtain ⟨x, hx, hnode⟩ := bind_eq_ok_iff.mp h
  cases x with
  | directory => cases hnode
  | entry place name slash =>
    dsimp only at hnode
    split at hnode
    · cases hnode
    · cases hnode
    · split_ifs at hnode with hslash
      cases hnode
      rw [Bool.not_eq_true] at hslash
      exact ⟨place, name, hslash ▸ hx, by simp [*], rfl⟩

theorem write_of_faults (f : Faults) (t : Tree) (path : Path) (content : Content) :
    (f.write t path content).2 = t ∨
      ∃ content', t.write path content' = .ok (f.write t path content).2 := by
  rw [Faults.write]
  split
  · exact Or.inl rfl
  · rename_i u hwrite
    split
    · exact Or.inr ⟨content, hwrite⟩
    · split
      · exact Or.inl rfl
      · rename_i size _
        cases hpart : t.write path (content.take size) with
        | error fault => exact Or.inl rfl
        | ok v => exact Or.inr ⟨content.take size, hpart⟩

theorem remove_of_discard (f : Faults) (t : Tree) (path : Path) :
    f.discard t path = t ∨ t.remove path = .ok (f.discard t path) := by
  rw [Faults.discard]
  cases hremove : f.guarded .remove path t (t.remove path) with
  | error fault => exact Or.inl rfl
  | ok u => exact Or.inr (Faults.done_of_guarded hremove)

/-! ### One change -/

/-- Two trees have the same directories, and the same at every place but one. -/
structure ChangedAt (place : Place) (t u : Tree) : Prop where
  directories : SameDirectories t u
  elsewhere : ∀ other, other ≠ place → u.node? other = t.node? other

theorem ChangedAt.refl (place : Place) (t : Tree) : ChangedAt place t t :=
  ⟨.refl t, fun _ _ => rfl⟩

theorem ChangedAt.trans (h : ChangedAt place t u) (h' : ChangedAt place u v) :
    ChangedAt place t v :=
  ⟨h.directories.trans h'.directories,
    fun other hother => (h'.elsewhere other hother).trans (h.elsewhere other hother)⟩

theorem changedAt_put (h : t.node? place ≠ some .directory) (content : Content) :
    ChangedAt place t (t.put place (.file content)) := by
  have hplace := ne_nil_of_node? h
  exact ⟨.put_file h content, fun other hother => by rw [node?_put hplace, if_neg hother.symm]⟩

theorem changedAt_erase (h : t.node? place ≠ some .directory) :
    ChangedAt place t (t.erase place) := by
  have hplace := ne_nil_of_node? h
  exact ⟨.erase_file h, fun other hother => by rw [node?_erase hplace, if_neg hother.symm]⟩

/-- **What is at one name behind a path is no matter for another name behind it.** -/
theorem ChangedAt.lookup_join {name' : Name} (h : ChangedAt (place ++ [name]) t u)
    (hplace : (names path).foldlM t.enter [] = .ok place) (hname : IsName name')
    (hdots : name' ≠ "." ∧ name' ≠ "..") (hne : name' ≠ name) :
    u.lookup (join path name') = t.lookup (join path name') := by
  have htarget : u.target (join path name') = t.target (join path name') := by
    rw [target_join_of_enter hplace hname hdots,
      target_join_of_enter (h.directories.kept.foldlM_enter hplace) hname hdots]
  rw [lookup, lookup, htarget]
  cases hx : t.target (join path name') with
  | error fault => rfl
  | ok x =>
    obtain ⟨before, hbefore, rfl⟩ := enter_of_target_join hname hdots hx
    obtain rfl : place = before := Except.ok.inj (hplace.symm.trans hbefore)
    have hother : place ++ [name'] ≠ place ++ [name] := by simpa using hne
    rw [ok_bind, ok_bind]
    dsimp only
    rw [h.elsewhere _ hother]

/-! ### Making directories -/

/-- What is in one tree is in another, which may have directories where nothing was, to which some
of the paths lead. -/
def Ways (paths : List Path) (t u : Tree) : Prop :=
  ∀ p, u.node? p = t.node? p ∨
    t.node? p = none ∧ u.node? p = some .directory ∧ ∃ path ∈ paths, u.LeadsTo path p

namespace Ways

variable {paths : List Path}

theorem refl (paths : List Path) (t : Tree) : Ways paths t t := fun _ => Or.inl rfl

theorem directoriesIn (h : Ways paths t u) : DirectoriesIn t u := by
  intro p hp
  rcases h p with hsame | ⟨hnone, -⟩
  · rw [hsame, hp]
  · rw [hp] at hnone
    cases hnone

theorem trans (h : Ways paths t u) (h' : Ways paths u v) : Ways paths t v := by
  intro p
  rcases h' p with hsame' | ⟨hnone', hmade'⟩
  · rcases h p with hsame | ⟨hnone, hdirectory, path, hpath, hlead⟩
    · exact Or.inl (hsame'.trans hsame)
    · have hlead' := hlead.mono h'.directoriesIn
      exact Or.inr ⟨hnone, hsame'.trans hdirectory, path, hpath, hlead'⟩
  · rcases h p with hsame | ⟨-, hdirectory, -⟩
    · exact Or.inr ⟨hsame.symm.trans hnone', hmade'⟩
    · rw [hdirectory] at hnone'
      cases hnone'

theorem mono (h : Ways paths t u) {more : List Path} (hmore : paths ⊆ more) : Ways more t u :=
  fun p => (h p).imp_right fun ⟨hnone, hdirectory, path, hpath, hlead⟩ =>
    ⟨hnone, hdirectory, path, hmore hpath, hlead⟩

theorem node?_of_some (h : Ways paths t u) (hnode : t.node? place = some node) :
    u.node? place = some node := by
  rcases h place with hsame | ⟨hnone, -⟩
  · rw [hsame, hnode]
  · rw [hnode] at hnone
    cases hnone

end Ways

theorem isDirectory_iff : t.isDirectory path = true ↔ ∃ place, t.LeadsTo path place := by
  rw [isDirectory]
  unfold LeadsTo
  constructor
  · intro h
    split at h
    · exact ⟨_, ‹_›⟩
    · cases h
  · rintro ⟨place, hplace⟩
    rw [hplace]

theorem makeDirectory_ok (h : t.makeDirectory path = .ok u) :
    Ways [path] t u ∧ u.isDirectory path = true := by
  obtain ⟨x, hx, hnode⟩ := bind_eq_ok_iff.mp h
  cases x with
  | directory => cases hnode
  | entry place name slash =>
    dsimp only at hnode
    split at hnode
    · cases hnode
    · rename_i hnone
      cases hnode
      have hhere : (t.put (place ++ [name]) .directory).node? (place ++ [name]) =
          some .directory := by
        rw [node?_put (by simp), if_pos rfl]
      have helse : ∀ p, place ++ [name] ≠ p →
          (t.put (place ++ [name]) .directory).node? p = t.node? p := by
        intro p hp
        rw [node?_put (by simp), if_neg hp]
      have hkept : DirectoriesIn t (t.put (place ++ [name]) .directory) := by
        intro p hp
        rw [helse p (by rintro rfl; simp [hp] at hnone), hp]
      have hlead : (t.put (place ++ [name]) .directory).LeadsTo path (place ++ [name]) :=
        leadsTo_iff.mpr ⟨_, hkept.target hx, rfl, hhere⟩
      refine ⟨fun p => ?_, isDirectory_iff.mpr ⟨_, hlead⟩⟩
      by_cases hp : place ++ [name] = p
      · subst hp
        exact Or.inr ⟨hnone, hhere, path, List.mem_singleton_self path, hlead⟩
      · exact Or.inl (helse p hp)

variable {f : Faults}

theorem isDirectory_of_faults (h : f.isDirectory t path = true) : t.isDirectory path = true := by
  rw [Faults.isDirectory, Bool.and_eq_true] at h
  exact h.2

theorem settle_makeDirectory (f : Faults) (t : Tree) (path : Path) :
    let made := t.settle path f
      (f.guarded .makeDirectory path t (t.makeDirectory path))
    Ways [path] t made.2 ∧ (made.1 = .ok () → made.2.isDirectory path = true) := by
  intro made
  cases hmade : f.guarded .makeDirectory path t (t.makeDirectory path) with
  | ok u =>
    have hdone := makeDirectory_ok (Faults.done_of_guarded hmade)
    have hu : made = (.ok (), u) := by rw [← settle, ← hmade]
    rw [hu]
    exact ⟨hdone.1, fun _ => hdone.2⟩
  | error fault =>
    have hsettle : made = t.settle path f (.error fault) := by rw [← hmade]
    rw [hsettle, settle]
    split_ifs with hpresent
    · exact ⟨.refl _ t, fun _ => isDirectory_of_faults hpresent⟩
    · exact ⟨.refl _ t, by simp⟩

theorem makeEach_spec (t : Tree) (paths : List Path) :
    Ways paths t (t.makeEach paths f).2 ∧
      ((t.makeEach paths f).1 = .ok () →
        ∀ path, paths.head? = some path →
          (t.makeEach paths f).2.isDirectory path = true) := by
  induction paths with
  | nil => exact ⟨.refl [] t, by simp [makeEach]⟩
  | cons path shorter ih =>
    have hpath : [path] ⊆ path :: shorter := List.cons_subset_cons path (List.nil_subset shorter)
    have hshorter : shorter ⊆ path :: shorter := List.subset_cons_self path shorter
    simp only [List.head?_cons, Option.some.injEq, forall_eq']
    rw [makeEach]
    split
    · split
      · rename_i hmade
        rw [hmade] at ih
        exact ⟨ih.1.mono hshorter, by simp⟩
      · rename_i u hmade
        rw [hmade] at ih
        have hsettle := settle_makeDirectory f u path
        exact ⟨(ih.1.mono hshorter).trans (hsettle.1.mono hpath), hsettle.2⟩
    · have hsettle := settle_makeDirectory f t path
      exact ⟨hsettle.1.mono hpath, hsettle.2⟩

theorem makeDirectory_of_leadsTo (h : t.LeadsTo path place) :
    t.makeDirectory path = .error .present := by
  obtain ⟨x, hx, hplace⟩ := leadsTo_iff.mp h
  rw [makeDirectory, hx, ok_bind]
  cases x with
  | directory there => rfl
  | entry before name slash =>
    obtain ⟨rfl, hnode⟩ := hplace
    simp [hnode]

theorem makeDirectories_of_leadsTo (h : t.LeadsTo path place) :
    t.makeDirectories path = (.ok (), t) := by
  have hdirectory : ({} : Faults).isDirectory t path = true := isDirectory_iff.mpr ⟨place, h⟩
  rw [makeDirectories, ancestors]
  by_cases hsteps : (steps path).isEmpty = true
  · rw [if_pos hsteps]
    rfl
  · rw [if_neg hsteps, makeEach, makeDirectory_of_leadsTo h]
    simp [Faults.guarded, settle, hdirectory]

theorem follow_dots (slash : Bool) {names : List Name} (hdots : ∀ name ∈ names, name = ".") :
    t.follow slash place names = .ok (.directory place) := by
  induction names with
  | nil => rfl
  | cons name names ih =>
    obtain ⟨rfl, hrest⟩ := List.forall_mem_cons.mp hdots
    cases names with
    | nil => rfl
    | cons name' names =>
      rw [follow]
      · exact ih hrest
      · simp

theorem leadsTo_of_makeDirectories (h : t.makeDirectories path f = (.ok (), u)) {node : Node}
    (hlookup : u.lookup path = .ok (place, node)) : u.LeadsTo path place := by
  have hmade : (t.makeDirectories path f).1 = .ok () := congrArg Prod.fst h
  obtain rfl : (t.makeDirectories path f).2 = u := congrArg Prod.snd h
  have hunique : ∀ place', (t.makeDirectories path f).2.LeadsTo path place' →
      (t.makeDirectories path f).2.LeadsTo path place := by
    intro place' hlead
    rw [LeadsTo, hlookup] at hlead
    cases hlead
    exact hlookup
  by_cases hsteps : (steps path).isEmpty = true
  · -- the path has no names but those that stay at the root
    obtain ⟨x, hx, -⟩ := bind_eq_ok_iff.mp hlookup
    have hdots : ∀ name ∈ names path, name = "." := by
      intro name hname
      rw [steps, List.isEmpty_iff, List.filter_eq_nil_iff] at hsteps
      simpa using hsteps name hname
    have hfollow := follow_of_target hx
    rw [follow_dots _ hdots] at hfollow
    cases hfollow
    exact hunique [] (leadsTo_iff.mpr ⟨_, hx, rfl⟩)
  · have hhead : (ancestors path).head? = some path := by
      rw [ancestors]
      simp [hsteps]
    obtain ⟨place', hlead⟩ :=
      isDirectory_iff.mp ((makeEach_spec t (ancestors path)).2 hmade path hhead)
    exact hunique place' hlead

end Tree

end AddressPool.Files
