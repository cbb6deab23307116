import AddressPool.Proofs.Action
import AddressPool.Proofs.Address.Text
import AddressPool.Proofs.Files.Tree
import AddressPool.Proofs.Text.Blank
import AddressPool.Store.Disk
import Mathlib.Tactic

/-!
# What the operations of a store on disk come to

A reservation makes the file of its address and writes the marker of its set, and when the marker
cannot be written the file is there all the same (`Disk.reserved`).  As long as all that was added
to a tree are files for one owner (`Disk.Added`), to release that owner takes them all back
(`Disk.releaseOwner_spec`).  To open a store makes no reservations (`Disk.opened`).
-/

namespace AddressPool

open AddressPool.Files Attempt

/-! ### Names of files -/

theorem Address.mem_file {a : Address} {b : UInt8} (hb : b < 128) (h : b ∈ a.file) :
    b ∈ (Text.figures ++ ['.', ':']).map Char.toUInt8 := by
  obtain ⟨c, hc, rfl⟩ := Text.mem_bytesOf hb h
  rw [Address.text, String.toList_ofList] at hc
  exact List.mem_map_of_mem (by simpa using Address.mem_chars hc)

theorem Address.file_injective : Function.Injective Address.file := fun _ _ h =>
  Address.text_injective (bytesOf_injective h)

theorem Address.file_ne_of_unreadable (a : Address) {s : String}
    (hs : Address.ofChars? .strict s.toList = none) : a.file ≠ s :=
  fun h => a.text_ne_of_unreadable hs (bytesOf_injective h)

theorem Address.isName_file (a : Address) : IsName a.file where
  slash hslash := absurd (Address.mem_file (by decide) hslash) (by decide)
  nonempty := a.file_ne_of_unreadable (s := "") (by decide)

theorem Address.file_ne_dots (a : Address) : a.file ≠ "." ∧ a.file ≠ ".." :=
  ⟨a.file_ne_of_unreadable (by decide), a.file_ne_of_unreadable (by decide)⟩

namespace Disk

open Lockfile (failed)

variable {d : Disk} {t t₀ u : Tree} {place : Place} {owner : String} {name : Name} {node : Node}
  {a : Address} {setId : Nat}

/-- The name can be that of a reservation: it is not that of the file to lock, and no text that
begins like the names of markers. -/
def ReservationName (name : Name) : Prop :=
  name ≠ "lock" ∧ ∀ rest : String, name ≠ bytesOf ("last_reserved_ip." ++ rest)

/-- **Whether a file can be a reservation is told by its name.** -/
theorem isBookkeeping_eq_false_iff : isBookkeeping name = false ↔ ReservationName name := by
  rw [isBookkeeping, ReservationName]
  cases htext : textOf? name with
  | none =>
    refine iff_of_true rfl ⟨?_, fun rest => ?_⟩ <;>
      (rintro rfl; rw [textOf?_bytesOf] at htext; cases htext)
  | some file =>
    obtain rfl := textOf?_eq_some_iff.mp htext
    have hstem : markerStem.toList.isPrefixOf file.toList = true ↔
        ∃ rest : String, bytesOf file = bytesOf ("last_reserved_ip." ++ rest) := by
      rw [List.isPrefixOf_iff_prefix]
      constructor
      · rintro ⟨rest, hrest⟩
        have hfile : file = markerStem ++ String.ofList rest := by
          rw [← String.toList_inj, String.toList_append, String.toList_ofList, hrest]
        exact ⟨String.ofList rest, congrArg bytesOf hfile⟩
      · rintro ⟨rest, hrest⟩
        rw [bytesOf_injective hrest, String.toList_append]
        exact List.prefix_append _ _
    dsimp only
    rw [← Bool.not_eq_true, Bool.or_eq_true, not_or, hstem, not_exists, beq_iff_eq]
    rfl

instance (name : Name) : Decidable (ReservationName name) :=
  decidable_of_iff _ isBookkeeping_eq_false_iff

theorem reservationName_file (a : Address) : ReservationName a.file := by
  -- the names of the other files have a letter that is no figure
  have hletter : 'l'.toUInt8 ∉ a.file := fun hmem =>
    absurd (Address.mem_file (by decide) hmem) (by decide)
  refine ⟨fun hlock => hletter ?_, fun rest hmarker => hletter ?_⟩
  · rw [hlock]
    decide
  · rw [hmarker, bytesOf_append]
    exact List.mem_append_left _ (by decide)

theorem isName_lock : IsName Lockfile.name := by
  constructor <;> decide

theorem not_reservationName_lock : ¬ ReservationName Lockfile.name :=
  fun h => h.1 rfl

theorem not_reservationName_markerName (setId : Nat) : ¬ ReservationName (markerName setId) :=
  fun h => h.2 (Text.decimal setId) rfl

theorem file_ne (h : ¬ ReservationName name) : a.file ≠ name := by
  rintro rfl
  exact h (reservationName_file a)

theorem isName_markerName (setId : Nat) : IsName (markerName setId) where
  slash hslash := by
    rw [markerName, bytesOf_append] at hslash
    rcases List.mem_append.mp hslash with hslash | hslash
    · exact absurd hslash (by decide)
    · obtain ⟨c, hc, hslash⟩ := Text.mem_bytesOf (by decide) hslash
      rw [Text.decimal, String.toList_ofList] at hc
      have hfigure := Text.mem_figures_of_mem_digits (by norm_num) (by norm_num) _ hc
      have hnone : slash ∉ Text.figures.map Char.toUInt8 := by decide
      exact hnone (List.mem_map.mpr ⟨c, hfigure, hslash⟩)
  nonempty hempty := by
    rw [markerName, bytesOf_append, List.append_eq_nil_iff] at hempty
    exact absurd hempty.1 (by decide)

theorem ne_dots_of_not_reservationName (h : ¬ ReservationName name) : name ≠ "." ∧ name ≠ ".." := by
  refine ⟨?_, ?_⟩ <;> (rintro rfl; exact absurd h (by decide +kernel))

theorem markerName_ne_dots (setId : Nat) : markerName setId ≠ "." ∧ markerName setId ≠ ".." :=
  ne_dots_of_not_reservationName (not_reservationName_markerName setId)

/-! ### What only looks at the tree -/

@[simp]
theorem result_lock (d : Disk) (t : Tree) : result d.store.lock t = (.ok (), t) := rfl

@[simp]
theorem result_unlock (d : Disk) (t : Tree) : result d.store.unlock t = (.ok (), t) := rfl

theorem result_lastReserved (d : Disk) (setId : Nat) (t : Tree) :
    result (d.store.lastReserved setId) t = (d.lastReserved setId t, t) := by
  rw [store, result_ofVerdict_apply]

/-! ### Reservations -/

/-- What a reservation comes to on the tree: a file of the owner, and the marker of the set behind
it.  Between the two it can stop, and then the file is there and the marker is not changed. -/
inductive Reserved (d : Disk) (place : Place) (owner : String) (a : Address) (setId : Nat)
    (t : Tree) : Except Error Bool → Tree → Prop
  | taken : Reserved d place owner a setId t (.ok false) t
  | refused (fault : Fault) :
      Reserved d place owner a setId t (.error (failed "create" (d.path a.file) fault)) t
  | stopped (fault : Fault) : t.node? (place ++ [a.file]) = none →
      t.target (d.path a.file) = .ok (.entry place a.file false) →
      (t.put (place ++ [a.file]) (.file (bytesOf (Text.trim owner)))).write
        (d.path (markerName setId)) (bytesOf a.text) = .error fault →
      Reserved d place owner a setId t
        (.error (failed "write" (d.path (markerName setId)) fault))
        (t.put (place ++ [a.file]) (.file (bytesOf (Text.trim owner))))
  | won (content : Content) : t.node? (place ++ [a.file]) = none →
      t.target (d.path a.file) = .ok (.entry place a.file false) →
      t.node? (place ++ [markerName setId]) ≠ some .directory →
      Reserved d place owner a setId t (.ok true)
        ((t.put (place ++ [a.file]) (.file (bytesOf (Text.trim owner)))).put
          (place ++ [markerName setId]) (.file content))

theorem result_reserve (d : Disk) (owner : String) (a : Address) (setId : Nat) (t : Tree) :
    result (d.store.reserve owner a setId) t =
      match t.create (d.path a.file) (bytesOf (Text.trim owner)) with
      | .error .present => (.ok false, t)
      | .error fault => (.error (failed "create" (d.path a.file) fault), t)
      | .ok t =>
        match t.write (d.path (markerName setId)) (bytesOf a.text) with
        | .error fault => (.error (failed "write" (d.path (markerName setId)) fault), t)
        | .ok t => (.ok true, t) := by
  have hreserve : d.store.reserve owner a setId = d.reserve owner a setId := rfl
  rw [hreserve, reserve, result_ofVerdict_apply]
  dsimp only
  rw [Faults.guarded_default]
  cases hcreate : t.create (d.path a.file) [] with
  | error fault =>
    rw [Tree.create_of_error hcreate]
    cases fault <;> rfl
  | ok u =>
    obtain ⟨v, hwrite, hmade⟩ := Tree.write_of_create hcreate (bytesOf (Text.trim owner))
    rw [hmade]
    dsimp only
    rw [Faults.write_default, hwrite]
    dsimp only
    rw [Faults.write_default]
    cases v.write (d.path (markerName setId)) (bytesOf a.text) <;> rfl

/-- **A reservation changes the file of its address, the marker of its set, and nothing else.** -/
theorem reserved (hlead : t.LeadsTo d.directory place) (owner : String) (a : Address)
    (setId : Nat) :
    Reserved d place owner a setId t (result (d.store.reserve owner a setId) t).1
      (result (d.store.reserve owner a setId) t).2 := by
  rw [result_reserve]
  split
  · exact .taken
  · exact .refused _
  · rename_i u hcreate
    obtain ⟨before, name, htarget, hfree, rfl⟩ := Tree.create_ok hcreate
    have hentry := Tree.target_join hlead a.isName_file a.file_ne_dots htarget
    cases hentry
    split
    · exact .stopped _ hfree htarget ‹_›
    · rename_i u hwrite
      obtain ⟨before, name, hmarker, hnode, content, rfl⟩ := Tree.change_ok hwrite
      have hsame : Tree.SameDirectories t
          (t.put (place ++ [a.file]) (.file (bytesOf (Text.trim owner)))) :=
        .put_file (by simp [hfree]) _
      have hentry := Tree.target_join (hlead.mono hsame.kept) (isName_markerName setId)
        (markerName_ne_dots setId) hmarker
      cases hentry
      exact .won content hfree htarget fun hdirectory => hnode (hsame.kept _ hdirectory)

/-! ### New files -/

/-- The files of a tree were there before, except for those that are no reservations. -/
def NoNewReservation (t u : Tree) : Prop :=
  ∀ (directory : Place) (name : Name) (content : Content),
    u.node? (directory ++ [name]) = some (.file content) → ReservationName name →
      ∃ content₀, t.node? (directory ++ [name]) = some (.file content₀)

theorem NoNewReservation.refl (t : Tree) : NoNewReservation t t :=
  fun _ _ content hfile _ => ⟨content, hfile⟩

theorem NoNewReservation.trans {v : Tree} (h : NoNewReservation t u) (h' : NoNewReservation u v) :
    NoNewReservation t v := by
  intro directory name content hfile hname
  obtain ⟨content', hfile'⟩ := h' directory name content hfile hname
  exact h directory name content' hfile' hname

/-- The file is a reservation for an owner in the directory of the store. -/
def IsReservation (d : Disk) (place : Place) (owner : String) (t : Tree) (directory : Place)
    (name : Name) (content : Content) : Prop :=
  ∃ a : Address, directory = place ∧ name = a.file ∧ content = bytesOf (Text.trim owner) ∧
    t.target (d.path a.file) = .ok (.entry place a.file false)

/-- The directories are the same, and a file was there before, or it is a reservation for the owner,
or none at all. -/
structure Added (d : Disk) (place : Place) (owner : String) (t u : Tree) : Prop where
  directories : Tree.SameDirectories t u
  files : ∀ (directory : Place) (name : Name) (content : Content),
    u.node? (directory ++ [name]) = some (.file content) → ReservationName name →
      (∃ content₀, t.node? (directory ++ [name]) = some (.file content₀)) ∨
        IsReservation d place owner t directory name content

theorem node?_of_put_bookkeeping {directory directory' : Place} {name name' : Name}
    {content content' : Content} (hname : ¬ ReservationName name)
    (hfile : (t.put (directory ++ [name]) (.file content)).node? (directory' ++ [name']) =
      some (.file content')) (hname' : ReservationName name') :
    t.node? (directory' ++ [name']) = some (.file content') := by
  rw [Tree.node?_put (by simp)] at hfile
  split_ifs at hfile with heq
  · obtain ⟨-, hlast⟩ := List.append_inj' heq rfl
    cases hlast
    exact absurd hname' hname
  · exact hfile

namespace Added

theorem refl (t : Tree) : Added d place owner t t :=
  ⟨.refl t, fun _ _ content h _ => Or.inl ⟨content, h⟩⟩

theorem of_noNewReservation (hsame : Tree.SameDirectories t u) (h : NoNewReservation t u) :
    Added d place owner t u :=
  ⟨hsame, fun directory name content hfile hname => Or.inl (h directory name content hfile hname)⟩

theorem put_bookkeeping (h : Added d place owner t₀ t) {directory : Place} {name : Name}
    (hname : ¬ ReservationName name) (hnode : t.node? (directory ++ [name]) ≠ some .directory)
    (content : Content) : Added d place owner t₀ (t.put (directory ++ [name]) (.file content)) := by
  refine ⟨h.directories.trans (.put_file hnode content), ?_⟩
  intro directory' name' content' hfile hname'
  exact h.files directory' name' content' (node?_of_put_bookkeeping hname hfile hname') hname'

theorem put_reservation (h : Added d place owner t₀ t)
    (hfree : t.node? (place ++ [a.file]) = none)
    (htarget : t.target (d.path a.file) = .ok (.entry place a.file false)) :
    Added d place owner t₀
      (t.put (place ++ [a.file]) (.file (bytesOf (Text.trim owner)))) := by
  refine ⟨h.directories.trans (.put_file (by simp [hfree]) _), ?_⟩
  intro directory name content hfile hname
  rw [Tree.node?_put (by simp)] at hfile
  split_ifs at hfile with heq
  · cases hfile
    obtain ⟨hplace, hlast⟩ := List.append_inj' heq rfl
    cases hlast
    exact Or.inr ⟨a, hplace.symm, rfl, rfl, h.directories.old.target htarget⟩
  · exact h.files directory name content hfile hname

theorem reserved (h : Added d place owner t₀ t) {r : Except Error Bool}
    (hreserved : Reserved d place owner a setId t r u) : Added d place owner t₀ u := by
  cases hreserved with
  | taken => exact h
  | refused fault => exact h
  | stopped fault hfree htarget _ => exact h.put_reservation hfree htarget
  | won content hfree htarget hmarker =>
    have hmarkerName := not_reservationName_markerName setId
    refine (h.put_reservation hfree htarget).put_bookkeeping hmarkerName ?_ _
    exact fun hdirectory => hmarker
      ((Tree.SameDirectories.put_file (by simp [hfree]) _).old _ hdirectory)

end Added

/-! ### Releases -/

/-- Files were removed from a tree, and nothing else was done. -/
structure Removed (t u : Tree) : Prop where
  directories : Tree.SameDirectories t u
  files : ∀ (place : Place) (content : Content),
    u.node? place = some (.file content) → t.node? place = some (.file content)

theorem Removed.refl (t : Tree) : Removed t t :=
  ⟨.refl t, fun _ _ h => h⟩

theorem Removed.trans {v : Tree} (h : Removed t u) (h' : Removed u v) : Removed t v :=
  ⟨h.directories.trans h'.directories,
    fun place content hfile => h.files place content (h'.files place content hfile)⟩

theorem removed_of_remove {path : Path} (h : t.remove path = .ok u) : Removed t u := by
  obtain ⟨before, name, -, hnode, rfl⟩ := Tree.remove_ok h
  refine ⟨.erase_file hnode, fun other content hfile => ?_⟩
  rw [Tree.node?_erase (by simp)] at hfile
  split_ifs at hfile
  exact hfile

variable {f : Faults}

theorem removed_releaseIfHeld (d : Disk) (owner : String) (name : Name) (t : Tree) :
    Removed t (Action.result (d.releaseIfHeld owner name f) t).2 := by
  rw [Action.result, releaseIfHeld]
  split_ifs
  · dsimp only
    split
    · exact .refl t
    · exact removed_of_remove (Faults.done_of_guarded ‹_›)
  · exact .refl t

theorem removed_releaseAmong (d : Disk) (owner : String) (names : List Name) (t : Tree) :
    Removed t (Action.result (d.releaseAmong owner names f) t).2 := by
  induction names generalizing t with
  | nil => exact .refl t
  | cons name names ih =>
    rw [releaseAmong, Action.result_bind]
    exact (removed_releaseIfHeld d owner name t).trans (ih _)

theorem isHeldBy_eq (d : Disk) (t : Tree) (owner : String) (name : Name) :
    d.isHeldBy t owner name = (!t.isDirectory (d.path name) && !isBookkeeping name &&
      match t.readText (d.path name) with
      | .ok text => Text.trim text == owner
      | .error _ => false) := rfl

theorem releaseIfHeld_removes
    (htarget : t.target (d.path a.file) = .ok (.entry place a.file false)) :
    (Action.result (d.releaseIfHeld (Text.trim owner) a.file) t).2.node? (place ++ [a.file]) ≠
      some (.file (bytesOf (Text.trim owner))) := by
  intro hfile
  have hbefore :=
    (removed_releaseIfHeld d (Text.trim owner) a.file t).files (place ++ [a.file]) _ hfile
  have hdirectory : t.isDirectory (d.path a.file) = false := by
    rw [Tree.isDirectory, Tree.lookup_eq htarget, hbefore]
  have hread : t.readText (d.path a.file) = .ok (Text.trim owner) :=
    Tree.readText_of_file htarget hbefore (textOf?_bytesOf _)
  have hname : isBookkeeping a.file = false :=
    isBookkeeping_eq_false_iff.mpr (reservationName_file a)
  have hheld : d.isHeldBy t (Text.trim owner) a.file = true := by
    rw [isHeldBy_eq, hdirectory, hname, hread]
    simp [Text.trim_trim]
  rw [Action.result, releaseIfHeld, if_pos hheld] at hfile
  dsimp only at hfile
  rw [Faults.guarded_default, Tree.remove_of_file htarget hbefore] at hfile
  dsimp only at hfile
  rw [Tree.node?_erase (by simp), if_pos rfl] at hfile
  cases hfile

theorem releaseAmong_removes {names : List Name} (hname : a.file ∈ names)
    (htarget : t.target (d.path a.file) = .ok (.entry place a.file false)) :
    (Action.result (d.releaseAmong (Text.trim owner) names) t).2.node? (place ++ [a.file]) ≠
      some (.file (bytesOf (Text.trim owner))) := by
  induction names generalizing t with
  | nil => cases hname
  | cons name names ih =>
    rw [releaseAmong, Action.result_bind]
    have hfirst := removed_releaseIfHeld (f := {}) d (Text.trim owner) name t
    by_cases hmine : name = a.file
    · subst hmine
      exact fun hfile => releaseIfHeld_removes htarget
        ((removed_releaseAmong d (Text.trim owner) names _).files _ _ hfile)
    · -- its path still leads where it did when its turn comes
      have hlater : a.file ∈ names := (List.mem_cons.mp hname).resolve_left (Ne.symm hmine)
      exact ih hlater (hfirst.directories.kept.target htarget)

/-- **To release an owner takes back what was added for the owner.** -/
theorem releaseOwner_spec (hlead : t₀.LeadsTo d.directory place)
    (h : Added d place owner t₀ t) :
    Tree.SameDirectories t₀ (result (d.releaseOwner owner) t).2 ∧
      NoNewReservation t₀ (result (d.releaseOwner owner) t).2 := by
  have hlist : t.list d.directory = .ok (t.children place) :=
    bind_eq_ok_iff.mpr ⟨_, hlead.mono h.directories.kept, rfl⟩
  rw [releaseOwner, result_ofVerdict_apply, Faults.guarded_default, hlist]
  change Tree.SameDirectories t₀
      (Action.result (d.releaseAmong (Text.trim owner) (t.children place)) t).2 ∧
    NoNewReservation t₀ (Action.result (d.releaseAmong (Text.trim owner) (t.children place)) t).2
  have hremoved := removed_releaseAmong (f := {}) d (Text.trim owner) (t.children place) t
  refine ⟨h.directories.trans hremoved.directories, ?_⟩
  intro directory name content hfile hname
  have hbefore := hremoved.files _ _ hfile
  rcases h.files directory name content hbefore hname with hold | ⟨a, rfl, rfl, rfl, htarget⟩
  · exact hold
  · -- the file was there to be listed, and so it was removed
    exact absurd hfile (releaseAmong_removes (Tree.mem_children.mpr ⟨_, hbefore⟩)
      (h.directories.kept.target htarget))

/-! ### Opening a store -/

/-- What opening a store does to a tree: no file is new but the one to lock, and nothing is gone. -/
structure Opened (t u : Tree) : Prop where
  fresh : NoNewReservation t u
  kept : ∀ place, u.node? place = none → t.node? place = none

theorem Opened.of_ways {paths : List Path} (h : Tree.Ways paths t u) : Opened t u := by
  refine ⟨fun directory name content hfile _ => ?_, fun place hplace => ?_⟩
  · rcases h (directory ++ [name]) with hsame | ⟨-, hdirectory, -⟩
    · exact ⟨content, hsame ▸ hfile⟩
    · rw [hdirectory] at hfile
      cases hfile
  · rcases h place with hsame | ⟨-, hdirectory, -⟩
    · exact hsame ▸ hplace
    · rw [hdirectory] at hplace
      cases hplace

theorem Opened.put_bookkeeping (h : Opened t u) {directory : Place} {name : Name}
    (hname : ¬ ReservationName name) (content : Content) :
    Opened t (u.put (directory ++ [name]) (.file content)) := by
  refine ⟨fun directory' name' content' hfile hname' => ?_, fun place hplace => ?_⟩
  · have hold := node?_of_put_bookkeeping hname hfile hname'
    exact h.fresh directory' name' content' hold hname'
  · rw [Tree.node?_put (by simp)] at hplace
    split_ifs at hplace
    exact h.kept place hplace

/-- What opening the file to lock for a directory comes to: it is there, and was made if need be. -/
inductive LockOpened (path : Path) (t : Tree) : Except Error Path → Tree → Prop
  | failed (context cause : String) : LockOpened path t (.error (.storage context cause)) t
  | opened {place : Place} {u : Tree} : t.LeadsTo path place →
      t.touch (join path Lockfile.name) = .ok u →
      LockOpened path t (.ok (join path Lockfile.name)) u

theorem lockOpened {path : Path}
    (hmade : ∀ place node, t.lookup path = .ok (place, node) → t.LeadsTo path place) :
    LockOpened path t (result (Lockfile.openAt path f) t).1
      (result (Lockfile.openAt path f) t).2 := by
  rw [Lockfile.openAt, result_ofVerdict_apply]
  dsimp only
  cases hstat : f.guarded .stat path t (t.lookup path) with
  | error fault => exact .failed _ _
  | ok found =>
    obtain ⟨place, node⟩ := found
    have hlookup := Faults.done_of_guarded hstat
    have hlead := hmade place node hlookup
    obtain rfl : node = .directory := by
      rw [Tree.LeadsTo, hlookup] at hlead
      cases hlead
      rfl
    dsimp only
    rw [if_pos rfl]
    cases htouch : f.guarded .openLock (join path Lockfile.name) t
      (t.touch (join path Lockfile.name)) with
    | error fault => exact .failed _ _
    | ok u => exact .opened hlead (Faults.done_of_guarded htouch)

theorem opened_lockfile {path : Path} (h : Opened t₀ t)
    (hmade : ∀ place node, t.lookup path = .ok (place, node) → t.LeadsTo path place) :
    Opened t₀ (result (Lockfile.openAt path f) t).2 ∧
      match (result (Lockfile.openAt path f) t).1 with
      | .ok _ => ∃ place, (result (Lockfile.openAt path f) t).2.LeadsTo path place
      | .error e => ∃ context cause, e = .storage context cause := by
  have hopened := lockOpened (f := f) hmade
  rcases hresult : result (Lockfile.openAt path f) t with ⟨r, u⟩
  rw [hresult] at hopened
  cases hopened with
  | failed context cause => exact ⟨h, _, _, rfl⟩
  | @opened place _ hlead htouch =>
    obtain ⟨before, name, htarget, hnode, content, rfl⟩ := Tree.change_ok htouch
    cases Tree.target_join hlead isName_lock
      (ne_dots_of_not_reservationName not_reservationName_lock) htarget
    exact ⟨h.put_bookkeeping not_reservationName_lock content, place,
      hlead.mono (Tree.SameDirectories.put_file hnode _).kept⟩

/-- **Opening a store makes its directory and makes no reservations.** -/
theorem opened (network : String) (dataDir? : Option String) (t : Tree) :
    Opened t (result (openAt network dataDir? f) t).2 ∧
      match (result (openAt network dataDir? f) t).1 with
      | .ok d => d.directory = join (dataDir?.getD defaultDataDir) network ∧
          ∃ place, (result (openAt network dataDir? f) t).2.LeadsTo d.directory place
      | .error e => ∃ context cause, e = .storage context cause := by
  have hmore : Opened t
      (t.makeDirectories (join (dataDir?.getD defaultDataDir) network) f).2 :=
    .of_ways (Tree.makeEach_spec t _).1
  rw [openAt, result_bind, result_ofVerdict_apply]
  rcases hmade : t.makeDirectories (join (dataDir?.getD defaultDataDir) network) f with
    ⟨_ | _, t₁⟩
  · rw [hmade] at hmore
    exact ⟨hmore, _, _, rfl⟩
  · rw [hmade] at hmore
    obtain ⟨hopened, hresult⟩ := opened_lockfile (f := f) hmore
      fun place node => Tree.leadsTo_of_makeDirectories hmade
    dsimp only
    rw [result_bind]
    rcases hlock : result (Lockfile.openAt _ f) t₁ with ⟨_ | file, u⟩
    · rw [hlock] at hopened hresult
      exact ⟨hopened, hresult⟩
    · rw [hlock] at hopened hresult
      exact ⟨hopened, rfl, hresult⟩

end Disk

end AddressPool
