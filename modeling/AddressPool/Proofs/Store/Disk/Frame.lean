import AddressPool.Proofs.Store.Disk.Files
import Mathlib.Tactic

/-!
# What a store on disk leaves alone

To open a store makes directories on the way to its own, and there at most the file to lock
(`Disk.opens_openAt`).  Everything behind that happens in the directory of the store, to reservations
of the owner and to the markers of the sets (`Disk.Confined`).  This is so whatever fails: a
reservation that is stopped has changed its own file and the marker at most
(`Disk.confined_reserve`), and a release that is stopped has removed files of the owner
(`Disk.confined_releaseOwner`).
-/

namespace AddressPool

open AddressPool.Files Attempt

namespace Disk

variable {d : Disk} {t u v : Tree} {place : Place} {owner : String} {name : Name} {a : Address}
  {setId markers : Nat} {f : Faults}

/-! ### One file -/

/-- One file of a directory is made, written or removed. -/
structure Touched (place : Place) (name : Name) (t u : Tree) : Prop where
  changed : Tree.ChangedAt (place ++ [name]) t u
  wellNamed : t.WellNamed → u.WellNamed

namespace Touched

theorem refl (place : Place) (name : Name) (t : Tree) : Touched place name t t :=
  ⟨.refl _ t, id⟩

theorem trans (h : Touched place name t u) (h' : Touched place name u v) : Touched place name t v :=
  ⟨h.changed.trans h'.changed, h'.wellNamed ∘ h.wellNamed⟩

theorem put (htarget : t.target (d.path name) = .ok (.entry place name false))
    (hnode : t.node? (place ++ [name]) ≠ some .directory) (content : Content) :
    Touched place name t (t.put (place ++ [name]) (.file content)) :=
  ⟨Tree.changedAt_put hnode content, fun hnames => hnames.put (Tree.fileName_of_target htarget)⟩

theorem erase (hnode : t.node? (place ++ [name]) ≠ some .directory) :
    Touched place name t (t.erase (place ++ [name])) :=
  ⟨Tree.changedAt_erase hnode, fun hnames => hnames.erase (by simp)⟩

variable (hlead : t.LeadsTo d.directory place) (hname : IsName name)
  (hdots : name ≠ "." ∧ name ≠ "..")
include hlead hname hdots

theorem of_write {content : Content} (h : t.write (d.path name) content = .ok u) :
    Touched place name t u := by
  obtain ⟨before, last, htarget, hnode, rfl⟩ := Tree.write_ok h
  cases Tree.target_join hlead hname hdots htarget
  exact put htarget hnode content

theorem of_remove (h : t.remove (d.path name) = .ok u) : Touched place name t u := by
  obtain ⟨before, last, htarget, hnode, rfl⟩ := Tree.remove_ok h
  cases Tree.target_join hlead hname hdots htarget
  exact erase hnode

theorem write (f : Faults) (content : Content) :
    Touched place name t (f.write t (d.path name) content).2 := by
  rcases Tree.write_of_faults f t (d.path name) content with hsame | ⟨content', hwrite⟩
  · rw [hsame]
    exact refl place name t
  · exact of_write hlead hname hdots hwrite

theorem discard (f : Faults) : Touched place name t (f.discard t (d.path name)) := by
  rcases Tree.remove_of_discard f t (d.path name) with hsame | hremove
  · rw [hsame]
    exact refl place name t
  · exact of_remove hlead hname hdots hremove

end Touched

/-! ### In the directory of the store -/

/-- The name of a file that operations may change: the file to lock, a reservation or the marker of
one of the sets, of which there are `markers`. -/
def OwnName (markers : Nat) (name : Name) : Prop :=
  name = Lockfile.name ∨ ReservationName name ∨ ∃ i < markers, name = markerName i

/-- What is under a name may change: a reservation of the owner, or the marker of one of the sets.
-/
def OwnFile (owner : String) (markers : Nat) (name : Name) (node : Node) : Prop :=
  ReservationOf owner name node ∨
    (∃ i < markers, name = markerName i) ∧ ∃ content, node = .file content

/-- Trees that differ in files of one directory, and there in those that may change. -/
structure Confined (place : Place) (owner : String) (markers : Nat) (t u : Tree) : Prop where
  directories : Tree.SameDirectories t u
  outside : ∀ p, (∀ name, place ++ [name] ≠ p) → u.node? p = t.node? p
  inside : ∀ name, u.node? (place ++ [name]) ≠ t.node? (place ++ [name]) →
    OwnName markers name ∧
      ∀ node, t.node? (place ++ [name]) = some node → OwnFile owner markers name node
  wellNamed : t.WellNamed → u.WellNamed

namespace Confined

theorem refl (place : Place) (owner : String) (markers : Nat) (t : Tree) :
    Confined place owner markers t t :=
  ⟨.refl t, fun _ _ => rfl, fun _ hchanged => absurd rfl hchanged, id⟩

theorem trans (h : Confined place owner markers t u) (h' : Confined place owner markers u v) :
    Confined place owner markers t v where
  directories := h.directories.trans h'.directories
  outside p hp := (h'.outside p hp).trans (h.outside p hp)
  inside name hchanged := by
    by_cases hfirst : u.node? (place ++ [name]) = t.node? (place ++ [name])
    · rw [← hfirst] at hchanged ⊢
      exact h'.inside name hchanged
    · exact h.inside name hfirst
  wellNamed := h'.wellNamed ∘ h.wellNamed

theorem node?_of_not {node : Node} (h : Confined place owner markers t u)
    (hnode : t.node? (place ++ [name]) = some node) (hown : ¬ OwnFile owner markers name node) :
    u.node? (place ++ [name]) = some node := by
  by_contra hchanged
  rw [← hnode] at hchanged
  exact hown ((h.inside name hchanged).2 node hnode)

theorem of_touched (h : Touched place name t u) (hname : OwnName markers name)
    (hown : ∀ content, t.node? (place ++ [name]) = some (.file content) →
      OwnFile owner markers name (.file content)) : Confined place owner markers t u where
  directories := h.changed.directories
  outside p hp := h.changed.elsewhere p (hp name).symm
  inside name' hchanged := by
    obtain rfl : name' = name := by
      by_contra hne
      exact hchanged (h.changed.elsewhere _ (by simpa using hne))
    refine ⟨hname, fun node hnode => ?_⟩
    cases node with
    | file content => exact hown content hnode
    | directory =>
      -- directories stay
      rw [h.changed.directories.kept _ hnode, hnode] at hchanged
      exact absurd rfl hchanged
  wellNamed := h.wellNamed

theorem of_marker (hmarker : setId < markers) (h : Touched place (markerName setId) t u) :
    Confined place owner markers t u :=
  of_touched h (Or.inr (Or.inr ⟨setId, hmarker, rfl⟩)) fun content _ =>
    Or.inr ⟨⟨setId, hmarker, rfl⟩, content, rfl⟩

end Confined

/-- **A reservation makes a file and writes the marker of its set, or a part of that.** -/
theorem confined_reserve (hlead : t.LeadsTo d.directory place) (hmarker : setId < markers)
    (f : Faults) (owner : String) (a : Address) :
    Confined place owner markers t (result ((d.store f).reserve owner a setId) t).2 := by
  have hreserve : (d.store f).reserve owner a setId = d.reserve owner a setId f := rfl
  rw [hreserve, reserve, result_ofVerdict_apply]
  dsimp only
  split
  · exact .refl place owner markers t
  · exact .refl place owner markers t
  · rename_i t₁ hcreate
    obtain ⟨before, last, htarget, hfree, rfl⟩ := Tree.create_ok (Faults.done_of_guarded hcreate)
    cases Tree.target_join hlead a.isName_file a.file_ne_dots htarget
    have hmade : Touched place a.file t (t.put (place ++ [a.file]) (.file [])) :=
      .put htarget (by simp [hfree]) []
    have hlead₁ := hlead.mono hmade.changed.directories.kept
    have hwritten := hmade.trans (.write hlead₁ a.isName_file a.file_ne_dots f
      (bytesOf (Text.trim owner)))
    have hlead₂ := hlead.mono hwritten.changed.directories.kept
    -- all of this is about a file that was not there before
    have hconfined {u : Tree} (h : Touched place a.file t u) : Confined place owner markers t u :=
      .of_touched h (Or.inr (Or.inl (reservationName_file a))) (by simp [hfree])
    rcases hwrite : f.write (t.put (place ++ [a.file]) (.file [])) (d.path a.file)
      (bytesOf (Text.trim owner)) with ⟨_ | _, t₂⟩
    all_goals
      rw [hwrite] at hwritten hlead₂
      dsimp only
    · exact hconfined (hwritten.trans (.discard hlead₂ a.isName_file a.file_ne_dots f))
    · have hmarked : Confined place owner markers t₂
          (f.write t₂ (d.path (markerName setId)) (bytesOf a.text)).2 :=
        .of_marker hmarker (.write hlead₂ (isName_markerName setId) (markerName_ne_dots setId) f _)
      refine (hconfined hwritten).trans ?_
      split
      all_goals
        rename_i hstopped
        rwa [hstopped] at hmarked

/-! ### Releases -/

theorem confined_releaseIfHeld (hlead : t.LeadsTo d.directory place)
    (hname : ReservationName name → IsName name ∧ name ≠ "." ∧ name ≠ "..") (f : Faults) :
    Confined place owner markers t
      (Action.result (d.releaseIfHeld (Text.trim owner) name f) t).2 := by
  rw [Action.result, releaseIfHeld]
  split_ifs with hheld
  · obtain ⟨-, node, hnode, hreservation⟩ := holds_of_isHeldBy hlead hname hheld
    obtain ⟨hisName, hdots⟩ := hname hreservation.name
    dsimp only
    split
    · exact .refl place owner markers t
    · rename_i u hremove
      have htouched := Touched.of_remove hlead hisName hdots (Faults.done_of_guarded hremove)
      refine .of_touched htouched (Or.inr (Or.inl hreservation.name)) fun content hfile => ?_
      rw [hnode] at hfile
      cases hfile
      exact Or.inl hreservation
  · exact .refl place owner markers t

theorem confined_releaseAmong (hlead : t.LeadsTo d.directory place) {names : List Name}
    (hnames : ProperNames names) (f : Faults) : Confined place owner markers t
      (Action.result (d.releaseAmong (Text.trim owner) names f) t).2 := by
  induction names generalizing t with
  | nil => exact .refl place owner markers t
  | cons name names ih =>
    obtain ⟨hname, hnames⟩ := List.forall_mem_cons.mp hnames
    have hfirst : Confined place owner markers t _ := confined_releaseIfHeld hlead hname f
    rw [releaseAmong, Action.result_bind]
    exact hfirst.trans (ih (hlead.mono hfirst.directories.kept) hnames)

/-- **A release removes reservations of the owner, or some of them.** -/
theorem confined_releaseOwner (hlead : t.LeadsTo d.directory place) (hnames : t.WellNamed)
    (f : Faults) (owner : String) :
    Confined place owner markers t (result ((d.store f).releaseOwner owner) t).2 := by
  have hrelease : (d.store f).releaseOwner owner = d.releaseOwner owner f := rfl
  rw [hrelease, releaseOwner, result_ofVerdict_apply]
  dsimp only
  cases hlist : f.guarded .list d.directory t (t.list d.directory) with
  | error fault => exact .refl place owner markers t
  | ok names =>
    have hchildren : t.list d.directory = .ok (t.children place) :=
      bind_eq_ok_iff.mpr ⟨_, hlead, rfl⟩
    obtain rfl : t.children place = names :=
      Except.ok.inj (hchildren.symm.trans (Faults.done_of_guarded hlist))
    exact confined_releaseAmong hlead (properNames_of_wellNamed hnames place) f

/-! ### Opening the store -/

/-- What opening a store comes to, whether it works or not: directories are made, and behind them
the file to lock if it is not there. -/
structure Opens (directory : Path) (t t₁ u : Tree) : Prop where
  ways : Tree.Ways (ancestors directory) t t₁
  lock : u = t₁ ∨ ∃ place, t₁.LeadsTo directory place ∧
    ∀ owner markers, Confined place owner markers t₁ u

theorem lock_openAt {path : Path}
    (hmade : ∀ place node, t.lookup path = .ok (place, node) → t.LeadsTo path place) :
    (result (Lockfile.openAt path f) t).2 = t ∨ ∃ place, t.LeadsTo path place ∧
      ∀ owner markers, Confined place owner markers t (result (Lockfile.openAt path f) t).2 := by
  have hopened := lockOpened (f := f) hmade
  rcases hresult : result (Lockfile.openAt path f) t with ⟨r, u⟩
  rw [hresult] at hopened
  cases hopened with
  | failed context cause => exact Or.inl rfl
  | @opened place _ hlead htouch =>
    rcases Tree.touch_ok htouch with hsame | ⟨before, last, htarget, hnone, rfl⟩
    · exact Or.inl hsame
    · cases Tree.target_join hlead fileName_lock.toIsName fileName_lock.dots htarget
      refine Or.inr ⟨place, hlead, fun owner markers => ?_⟩
      have hput : Touched place Lockfile.name t (t.put (place ++ [Lockfile.name]) (.file [])) :=
        ⟨Tree.changedAt_put (by simp [hnone]) [], fun hnames => hnames.put fileName_lock⟩
      exact .of_touched hput (Or.inl rfl) (by simp [hnone])

/-- **To open a store makes directories on the way to its own, and there the file to lock.** -/
theorem opens_openAt (network : String) (dataDir? : Option String) (t : Tree) (f : Faults) :
    ∃ t₁, Opens (located network dataDir?).directory t t₁
      (result (openAt network dataDir? f) t).2 := by
  have hways := (Tree.makeEach_spec (f := f) t (ancestors (located network dataDir?).directory)).1
  rw [located] at hways ⊢
  rw [openAt, result_bind, result_ofVerdict_apply]
  dsimp only at hways ⊢
  rcases hmade : t.makeDirectories (join (dataDir?.getD defaultDataDir) network) f with ⟨_ | _, t₁⟩
  · exact ⟨_, hways, Or.inl (congrArg Prod.snd hmade).symm⟩
  · refine ⟨_, hways, ?_⟩
    have hlock := lock_openAt (f := f) fun place node => Tree.leadsTo_of_makeDirectories hmade
    obtain rfl : (t.makeDirectories _ f).2 = t₁ := congrArg Prod.snd hmade
    dsimp only
    rw [result_bind]
    rcases hresult : result (Lockfile.openAt _ f) _ with ⟨_ | file, u⟩
    · rw [hresult] at hlock
      exact hlock
    · rw [hresult] at hlock
      exact hlock

end Disk

end AddressPool
