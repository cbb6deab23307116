import AddressPool.Proofs.Files.Names
import AddressPool.Proofs.Store.Disk
import Mathlib.Tactic

/-!
# A store on disk, file by file

As long as the paths of its files lead to their names in one directory, each operation of a store on
disk is known to the file.  A reservation that is won makes two files (`Disk.reserve_eq_true_iff`),
and to release an owner removes the files of the owner's reservations and keeps everything else
(`Disk.released_releaseOwner`).  To open the store again changes nothing (`Disk.openAt_of_ready`).
-/

namespace AddressPool

open AddressPool.Files Attempt

namespace Disk

open Lockfile (failed)

variable {d : Disk} {t u : Tree} {place : Place} {owner : String} {name : Name} {node : Node}
  {a b : Address} {setId i : Nat} {f : Faults}

/-! ### Names -/

theorem markerName_injective : Function.Injective markerName := by
  intro i j hij
  have hchars := congrArg String.toList (bytesOf_injective hij)
  rw [String.toList_append, String.toList_append] at hchars
  apply Text.decimal_injective
  apply String.toList_inj.mp
  exact List.append_cancel_left hchars

theorem markerName_ne_lock (setId : Nat) : markerName setId ≠ Lockfile.name := by
  intro h
  have hlength := congrArg List.length h
  have hstem : (bytesOf markerStem).length = 17 := by decide
  have hlock : Lockfile.name.length = 4 := by decide
  rw [markerName, bytesOf_append, List.length_append, hstem, hlock] at hlength
  omega

theorem length_file_le (a : Address) : a.file.length ≤ 168 := by
  rw [Address.file, length_bytesOf]
  exact a.utf8ByteSize_text_le

theorem fileName_file (a : Address) : FileName a.file where
  toIsName := a.isName_file
  dots := a.file_ne_dots
  nul hnul := absurd (Address.mem_file (by decide) hnul) (by decide)
  length := (length_file_le a).trans (by decide)

/-- The path of a file of the store leads to its name in a directory. -/
def Reaches (d : Disk) (place : Place) (t : Tree) (name : Name) : Prop :=
  t.target (d.path name) = .ok (.entry place name false)

theorem Reaches.mono (h : d.Reaches place t name) (hdirectories : Tree.DirectoriesIn t u) :
    d.Reaches place u name :=
  hdirectories.target h

theorem reaches_of_faults (hlead : t.LeadsTo d.directory place) (hname : IsName name)
    (hdots : name ≠ "." ∧ name ≠ "..")
    (hfaults : ∀ fault, t.target (d.path name) = .error fault →
      fault = .present ∨ fault = .notFound) : d.Reaches place t name := by
  have htarget := Tree.target_join_eq hlead hname hdots
  unfold Reaches path at *
  rw [htarget] at hfaults ⊢
  split_ifs at hfaults ⊢
  · simp at hfaults
  · simp at hfaults
  · simp at hfaults
  · rfl

theorem reaches_of_fits (hlead : t.LeadsTo d.directory place) (hname : FileName name)
    (hpath : (d.path name).length ≤ Tree.longestPath) : d.Reaches place t name := by
  have hnul : 0 ∉ d.directory := by
    obtain ⟨x, hx, -⟩ := Tree.leadsTo_iff.mp hlead
    unfold Tree.target at hx
    split_ifs at hx with hnul
    simpa using hnul
  have hpathNul : ¬ (d.path name).contains 0 = true := by
    obtain ⟨between, hbetween, hjoin⟩ := join_eq d.directory hname.toIsName
    have hbetweenNul : 0 ∉ between := by
      rcases List.mem_pair.mp hbetween with rfl | rfl <;> decide
    rw [path, hjoin]
    simp [hnul, hbetweenNul, hname.nul]
  have htarget := Tree.target_join_eq hlead hname.toIsName hname.dots
  rw [path] at hpath hpathNul
  rw [if_neg hpathNul, if_neg (Nat.not_lt.mpr hpath), if_neg (Nat.not_lt.mpr hname.length)] at htarget
  exact htarget

theorem reaches_iff (hlead : t.LeadsTo d.directory place) (hname : FileName name) :
    d.Reaches place t name ↔ (d.path name).length ≤ Tree.longestPath := by
  refine ⟨fun hreaches => ?_, reaches_of_fits hlead hname⟩
  unfold Reaches Tree.target at hreaches
  split_ifs at hreaches with _ _ hlong
  exact Nat.le_of_not_lt hlong

theorem length_path_le (d : Disk) (hname : IsName name) :
    (d.path name).length ≤ d.directory.length + 1 + name.length := by
  obtain ⟨between, hbetween, hjoin⟩ := join_eq d.directory hname
  have hsize : between.length ≤ 1 := by
    rcases List.mem_pair.mp hbetween with rfl | rfl <;> decide
  rw [path, hjoin]
  simp only [List.length_append]
  omega

theorem reaches_of_size_le (hlead : t.LeadsTo d.directory place) (hname : FileName name)
    (hsize : d.directory.length + 1 + name.length ≤ Tree.longestPath) :
    d.Reaches place t name :=
  reaches_of_fits hlead hname ((d.length_path_le hname.toIsName).trans hsize)

/-! ### Reservations -/

/-- The tree with the file of a reservation and with the marker of its set. -/
def reservedIn (place : Place) (owner : String) (a : Address) (setId : Nat) (t : Tree) : Tree :=
  (t.put (place ++ [a.file]) (.file (bytesOf (Text.trim owner)))).put
    (place ++ [markerName setId]) (.file (bytesOf a.text))

theorem node?_reservedIn (place : Place) (owner : String) (a : Address) (setId : Nat) (t : Tree)
    (p : Place) :
    (reservedIn place owner a setId t).node? p =
      if place ++ [markerName setId] = p then some (.file (bytesOf a.text))
      else if place ++ [a.file] = p then some (.file (bytesOf (Text.trim owner)))
      else t.node? p := by
  rw [reservedIn, Tree.node?_put (by simp), Tree.node?_put (by simp)]

theorem sameDirectories_put (hfree : t.node? (place ++ [a.file]) = none) (owner : String) :
    Tree.SameDirectories t (t.put (place ++ [a.file]) (.file (bytesOf (Text.trim owner)))) :=
  .put_file (by simp [hfree]) _

theorem sameDirectories_reservedIn (hfree : t.node? (place ++ [a.file]) = none)
    (hmarker : t.node? (place ++ [markerName setId]) ≠ some .directory) (owner : String) :
    Tree.SameDirectories t (reservedIn place owner a setId t) := by
  refine (sameDirectories_put hfree owner).trans (.put_file (fun hdirectory => hmarker ?_) _)
  exact (sameDirectories_put hfree owner).old _ hdirectory

theorem reserve_of_present (ha : d.Reaches place t a.file)
    (h : t.node? (place ++ [a.file]) ≠ none) (owner : String) (setId : Nat) :
    result (d.store.reserve owner a setId) t = (.ok false, t) := by
  obtain ⟨node, hnode⟩ := Option.ne_none_iff_exists'.mp h
  rw [result_reserve, Tree.create_of_present ha hnode]

/-- **A reservation is won where no file is, and makes that file and the marker of the set.** -/
theorem reserve_eq_true_iff (hlead : t.LeadsTo d.directory place) :
    result (d.store.reserve owner a setId) t = (.ok true, u) ↔
      d.Reaches place t a.file ∧ d.Reaches place t (markerName setId) ∧
        t.node? (place ++ [a.file]) = none ∧
        t.node? (place ++ [markerName setId]) ≠ some .directory ∧
        u = reservedIn place owner a setId t := by
  rw [result_reserve]
  constructor
  · intro h
    split at h
    · cases h
    · cases h
    · rename_i t₁ hcreate
      split at h
      · cases h
      · rename_i t₂ hwrite
        cases h
        obtain ⟨before, name, ha, hfree, rfl⟩ := Tree.create_ok hcreate
        cases Tree.target_join hlead a.isName_file a.file_ne_dots ha
        have hsame := sameDirectories_put hfree owner
        obtain ⟨before, name, hmarker, hnode, -⟩ := Tree.change_ok hwrite
        cases Tree.target_join (hlead.mono hsame.kept) (isName_markerName setId)
          (markerName_ne_dots setId) hmarker
        rw [Tree.write_eq hmarker hnode] at hwrite
        refine ⟨ha, hsame.old.target hmarker, hfree, fun hdirectory => ?_, ?_⟩
        · exact hnode (hsame.kept _ hdirectory)
        · exact (Except.ok.inj hwrite).symm
  · rintro ⟨ha, hmarker, hfree, hnode, rfl⟩
    have hsame := sameDirectories_put hfree owner
    have hwrite : (t.put (place ++ [a.file]) (.file (bytesOf (Text.trim owner)))).write
        (d.path (markerName setId)) (bytesOf a.text) = .ok (reservedIn place owner a setId t) :=
      Tree.write_eq (hsame.kept.target hmarker) fun hdirectory => hnode (hsame.old _ hdirectory)
    rw [Tree.create_of_free ha hfree]
    dsimp only
    rw [hwrite]

/-! ### Markers -/

theorem lastReserved_of_none (h : d.Reaches place t (markerName setId))
    (hnone : t.node? (place ++ [markerName setId]) = none) :
    d.lastReserved setId t = .error (.noLastReserved setId) := by
  have hlookup : t.lookup (d.path (markerName setId)) = .error .notFound := by
    rw [Tree.lookup_eq h, hnone]
  have hread : t.readText (d.path (markerName setId)) = .error .notFound := by
    rw [Tree.readText, Tree.read, hlookup]
    rfl
  unfold lastReserved
  simp only [Faults.guarded_default, hread]

theorem lastReserved_of_file (h : d.Reaches place t (markerName setId))
    (hfile : t.node? (place ++ [markerName setId]) = some (.file (bytesOf a.text))) :
    d.lastReserved setId t = .ok a.canonical := by
  unfold lastReserved
  simp only [Faults.guarded_default, Tree.readText_of_file h hfile (textOf?_bytesOf a.text),
    Address.read?_text]

/-! ### Releases -/

/-- What stands under a name is a reservation of an owner: a file with the name of a reservation,
whose bytes are the text of the owner, but for the blanks around both. -/
structure ReservationOf (owner : String) (name : Name) (node : Node) : Prop where
  name : ReservationName name
  owner : ∃ text, node = .file (bytesOf text) ∧ Text.SameInside text owner

/-- **Whether a file is a reservation of an owner is told by its name and its trimmed text.** -/
theorem reservationOf_iff : ReservationOf owner name node ↔ isBookkeeping name = false ∧
    ∃ content text, node = .file content ∧ textOf? content = some text ∧
      Text.trim text = Text.trim owner := by
  rw [isBookkeeping_eq_false_iff]
  constructor
  · rintro ⟨hname, text, rfl, hsame⟩
    exact ⟨hname, _, text, rfl, textOf?_bytesOf text, Text.trim_eq_trim_iff.mpr hsame⟩
  · rintro ⟨hname, content, text, rfl, htext, htrim⟩
    rw [textOf?_eq_some_iff.mp htext]
    exact ⟨hname, text, rfl, Text.trim_eq_trim_iff.mp htrim⟩

instance (owner : String) (name : Name) (node : Node) : Decidable (ReservationOf owner name node) :=
  match node with
  | .directory => isFalse fun h => by simpa using h.owner
  | .file content => decidable_of_iff
      (isBookkeeping name = false ∧
        ((textOf? content).any fun text => Text.trim text == Text.trim owner) = true)
      (by rw [reservationOf_iff]; simp [Option.any_eq_true])

/-- A directory has a reservation of an owner under a name. -/
def HasReservation (place : Place) (owner : String) (t : Tree) (name : Name) : Prop :=
  ∃ node, t.node? (place ++ [name]) = some node ∧ ReservationOf owner name node

theorem HasReservation.file (h : HasReservation place owner t name) :
    ∃ content, t.node? (place ++ [name]) = some (.file content) := by
  obtain ⟨node, hnode, hreservation⟩ := h
  obtain ⟨text, rfl, -⟩ := hreservation.owner
  exact ⟨_, hnode⟩

theorem HasReservation.reservationName (h : HasReservation place owner t name) :
    ReservationName name :=
  h.choose_spec.2.name

/-- A directory has a reservation of an owner under a name, and the path of the file leads there. -/
structure Holds (d : Disk) (place : Place) (t : Tree) (owner : String) (name : Name) : Prop where
  reaches : d.Reaches place t name
  reservation : HasReservation place owner t name

/-- The names are what files can be called, as far as they may be those of reservations. -/
def ProperNames (names : List Name) : Prop :=
  ∀ name ∈ names, ReservationName name → IsName name ∧ name ≠ "." ∧ name ≠ ".."

theorem properNames_of_wellNamed (h : t.WellNamed) (place : Place) :
    ProperNames (t.children place) := by
  intro name hmem _
  obtain ⟨node, hnode⟩ := Tree.mem_children.mp hmem
  have hname := h place name node hnode
  exact ⟨hname.toIsName, hname.dots⟩

theorem holds_of_isHeldBy (hlead : t.LeadsTo d.directory place)
    (hname : ReservationName name → IsName name ∧ name ≠ "." ∧ name ≠ "..")
    (h : d.isHeldBy t (Text.trim owner) name f = true) : d.Holds place t owner name := by
  rw [isHeldBy] at h
  simp only [Bool.and_eq_true, Bool.not_eq_true'] at h
  obtain ⟨⟨-, hbookkeeping⟩, htext⟩ := h
  obtain ⟨hisName, hdots⟩ := hname (isBookkeeping_eq_false_iff.mp hbookkeeping)
  split at htext
  · rename_i text hread
    obtain ⟨p, content, hlookup, hcontent⟩ := Tree.readText_ok (Faults.done_of_guarded hread)
    obtain ⟨x, hx, -⟩ := bind_eq_ok_iff.mp hlookup
    cases Tree.target_join hlead hisName hdots hx
    rw [Tree.lookup_eq hx] at hlookup
    split at hlookup
    · cases hlookup
    · rename_i node hnode
      obtain ⟨-, rfl⟩ := Prod.mk.inj (Except.ok.inj hlookup)
      have howner : Text.trim text = Text.trim owner := beq_iff_eq.mp htext
      exact ⟨hx, _, hnode,
        reservationOf_iff.mpr ⟨hbookkeeping, content, text, rfl, hcontent, howner⟩⟩
  · cases htext

theorem isHeldBy_iff (hlead : t.LeadsTo d.directory place)
    (hname : ReservationName name → IsName name ∧ name ≠ "." ∧ name ≠ "..") :
    d.isHeldBy t (Text.trim owner) name = true ↔ d.Holds place t owner name := by
  refine ⟨holds_of_isHeldBy hlead hname, ?_⟩
  rintro ⟨hreaches, node, hnode, hreservation⟩
  obtain ⟨hbookkeeping, content, text, rfl, hcontent, howner⟩ := reservationOf_iff.mp hreservation
  have hdirectory : t.isDirectory (d.path name) = false := by
    rw [Tree.isDirectory, Tree.lookup_eq hreaches, hnode]
  rw [isHeldBy_eq, hdirectory, hbookkeeping, Tree.readText_of_file hreaches hnode hcontent]
  simp [howner]

theorem result_releaseIfHeld_of_holds (h : d.Holds place t owner name)
    (hheld : d.isHeldBy t (Text.trim owner) name = true) :
    Action.result (d.releaseIfHeld (Text.trim owner) name) t = ((), t.erase (place ++ [name])) := by
  obtain ⟨content, hfile⟩ := h.reservation.file
  rw [Action.result, releaseIfHeld, if_pos hheld]
  dsimp only
  rw [Faults.guarded_default, Tree.remove_of_file h.reaches hfile]

theorem result_releaseIfHeld_of_not (hheld : d.isHeldBy t owner name f = false) :
    Action.result (d.releaseIfHeld owner name f) t = ((), t) := by
  rw [Action.result, releaseIfHeld, if_neg (by simp [hheld])]

theorem result_releaseAmong_of_none {names : List Name}
    (h : ∀ name ∈ names, d.isHeldBy t owner name = false) :
    Action.result (d.releaseAmong owner names) t = ((), t) := by
  induction names with
  | nil => rfl
  | cons name names ih =>
    obtain ⟨hname, hnames⟩ := List.forall_mem_cons.mp h
    rw [releaseAmong, Action.result_bind, result_releaseIfHeld_of_not hname]
    exact ih hnames

/-- The reservations of an owner among some names are removed from a tree, and nothing else is
changed. -/
structure Released (d : Disk) (place : Place) (owner : String) (names : List Name) (t u : Tree) :
    Prop where
  directories : Tree.SameDirectories t u
  gone : ∀ name ∈ names, d.Holds place t owner name → u.node? (place ++ [name]) = none
  kept : ∀ p, (∀ name ∈ names, d.Holds place t owner name → place ++ [name] ≠ p) →
    u.node? p = t.node? p

theorem holds_erase_iff {name' : Name} {content : Content}
    (hfile : t.node? (place ++ [name']) = some (.file content)) (hne : name ≠ name') :
    d.Holds place (t.erase (place ++ [name'])) owner name ↔ d.Holds place t owner name := by
  have hsame : Tree.SameDirectories t (t.erase (place ++ [name'])) :=
    .erase_file (by simp [hfile])
  have hnode : (t.erase (place ++ [name'])).node? (place ++ [name]) = t.node? (place ++ [name]) := by
    rw [Tree.node?_erase (by simp), if_neg (by simpa using Ne.symm hne)]
  constructor
  · rintro ⟨hreaches, node, hheld, hreservation⟩
    exact ⟨hreaches.mono hsame.old, node, hnode ▸ hheld, hreservation⟩
  · rintro ⟨hreaches, node, hheld, hreservation⟩
    exact ⟨hreaches.mono hsame.kept, node, hnode.trans hheld, hreservation⟩

theorem released_cons {names : List Name} (h : d.Holds place t owner name)
    (hrest : d.Released place owner names (t.erase (place ++ [name])) u) :
    d.Released place owner (name :: names) t u := by
  obtain ⟨content, hfile⟩ := h.reservation.file
  have hgone : (t.erase (place ++ [name])).node? (place ++ [name]) = none := by
    rw [Tree.node?_erase (by simp), if_pos rfl]
  have hname : u.node? (place ++ [name]) = none := by
    refine (hrest.kept _ fun name' _ hholds heq => ?_).trans hgone
    obtain ⟨content', hfile'⟩ := hholds.reservation.file
    rw [heq, hgone] at hfile'
    cases hfile'
  refine ⟨.trans (.erase_file (by simp [hfile])) hrest.directories, ?_, ?_⟩
  · intro name' hmem hholds
    by_cases hne : name' = name
    · rw [hne, hname]
    · have hmem' : name' ∈ names := (List.mem_cons.mp hmem).resolve_left hne
      exact hrest.gone name' hmem' ((holds_erase_iff hfile hne).mpr hholds)
  · intro p hp
    have hne : place ++ [name] ≠ p := hp name List.mem_cons_self h
    rw [hrest.kept p, Tree.node?_erase (by simp), if_neg hne]
    intro name' hmem hholds
    by_cases heq : name' = name
    · rwa [heq]
    · exact hp name' (List.mem_cons_of_mem _ hmem) ((holds_erase_iff hfile heq).mp hholds)

theorem released_releaseAmong (hlead : t.LeadsTo d.directory place) {names : List Name}
    (hnames : ProperNames names) :
    d.Released place owner names t (Action.result (d.releaseAmong (Text.trim owner) names) t).2 := by
  induction names generalizing t with
  | nil => exact ⟨.refl t, fun _ h => absurd h List.not_mem_nil, fun _ _ => rfl⟩
  | cons name names ih =>
    obtain ⟨hname, hnames⟩ := List.forall_mem_cons.mp hnames
    rw [releaseAmong, Action.result_bind]
    cases hheld : d.isHeldBy t (Text.trim owner) name with
    | true =>
      have hholds := (isHeldBy_iff hlead hname).mp hheld
      obtain ⟨content, hfile⟩ := hholds.reservation.file
      have hsame : Tree.SameDirectories t (t.erase (place ++ [name])) :=
        .erase_file (by simp [hfile])
      rw [result_releaseIfHeld_of_holds hholds hheld]
      exact released_cons hholds (ih (hlead.mono hsame.kept) hnames)
    | false =>
      have hnot : ¬ d.Holds place t owner name := by
        rw [← isHeldBy_iff hlead hname, hheld]
        exact Bool.false_ne_true
      obtain ⟨hsame, hgone, hkept⟩ := ih hlead hnames
      rw [result_releaseIfHeld_of_not hheld]
      refine ⟨hsame, ?_, fun p hp => hkept p fun name' hmem => hp name' (.tail _ hmem)⟩
      intro name' hmem hholds
      rcases List.mem_cons.mp hmem with rfl | hmem
      · exact absurd hholds hnot
      · exact hgone name' hmem hholds

/-- Frees every address of an owner where the names in the directory come in another order. -/
def releaseOwnerBy (d : Disk) (order : List Name → List Name) (owner : String) :
    Attempt Tree Unit :=
  .ofVerdict fun t =>
    match t.list d.directory with
    | .error fault => ⟨.error (failed "list" d.directory fault), t, #[]⟩
    | .ok names =>
      let o := d.releaseAmong (Text.trim owner) (order names) {} t
      ⟨.ok (), o.state, o.log⟩

theorem releaseOwner_eq (d : Disk) (owner : String) :
    d.releaseOwner owner = d.releaseOwnerBy id owner := rfl

theorem result_releaseOwnerBy (hlead : t.LeadsTo d.directory place)
    (order : List Name → List Name) (owner : String) :
    result (d.releaseOwnerBy order owner) t = (.ok (),
      (Action.result (d.releaseAmong (Text.trim owner) (order (t.children place))) t).2) := by
  have hlist : t.list d.directory = .ok (t.children place) :=
    bind_eq_ok_iff.mpr ⟨_, hlead, rfl⟩
  rw [releaseOwnerBy, result_ofVerdict_apply]
  dsimp only
  rw [hlist]
  rfl

theorem result_releaseOwner (hlead : t.LeadsTo d.directory place) (owner : String) :
    result (d.releaseOwner owner) t =
      (.ok (), (Action.result (d.releaseAmong (Text.trim owner) (t.children place)) t).2) := by
  rw [releaseOwner_eq, result_releaseOwnerBy hlead, id]

/-- **To release an owner removes the files that are reservations of the owner, and no others.** -/
theorem released_releaseOwner (hlead : t.LeadsTo d.directory place)
    (hnames : ProperNames (t.children place)) (owner : String) :
    ∃ u, result (d.releaseOwner owner) t = (.ok (), u) ∧
      d.Released place owner (t.children place) t u :=
  ⟨_, result_releaseOwner hlead owner, released_releaseAmong hlead hnames⟩

theorem result_releaseOwner_of_none (hlead : t.LeadsTo d.directory place)
    (h : ∀ name ∈ t.children place, d.isHeldBy t (Text.trim owner) name = false) :
    result (d.releaseOwner owner) t = (.ok (), t) := by
  rw [result_releaseOwner hlead, result_releaseAmong_of_none h]

/-! ### Opening the store again -/

/-- The store of a network, with the file to lock in its directory. -/
def located (network : String) (dataDir? : Option String) : Disk :=
  let directory := join (dataDir?.getD defaultDataDir) network
  ⟨directory, join directory Lockfile.name⟩

/-- The store is open in a tree: its directory is there, and the file to lock in it. -/
structure Ready (network : String) (dataDir? : Option String) (d : Disk) (place : Place) (t : Tree) :
    Prop where
  disk : d = located network dataDir?
  lead : t.LeadsTo d.directory place
  reaches : d.Reaches place t Lockfile.name
  lock : ∃ content, t.node? (place ++ [Lockfile.name]) = some (.file content)

variable {network : String} {dataDir? : Option String}

theorem Ready.mono (h : Ready network dataDir? d place t) (hsame : Tree.SameDirectories t u)
    (hlock : u.node? (place ++ [Lockfile.name]) = t.node? (place ++ [Lockfile.name])) :
    Ready network dataDir? d place u :=
  ⟨h.disk, h.lead.mono hsame.kept, h.reaches.mono hsame.kept, hlock ▸ h.lock⟩

theorem fileName_lock : FileName Lockfile.name := by decide

theorem result_openAt_lockfile {path : Path} (hlead : t.LeadsTo path place) :
    result (Lockfile.openAt path) t =
      match t.touch (join path Lockfile.name) with
      | .error fault => (.error (failed "open lock file" (join path Lockfile.name) fault), t)
      | .ok t => (.ok (join path Lockfile.name), t) := by
  rw [Lockfile.openAt, result_ofVerdict_apply]
  dsimp only
  rw [Faults.guarded_default, hlead]
  dsimp only
  rw [if_pos rfl, Faults.guarded_default]
  cases t.touch (join path Lockfile.name) <;> rfl

/-- **To open a store that is open changes nothing.** -/
theorem openAt_of_ready (h : Ready network dataDir? d place t) :
    result (openAt network dataDir?) t = (.ok d, t) := by
  obtain ⟨rfl, hlead, hreaches, content, hlock⟩ := h
  have hmade := Tree.makeDirectories_of_leadsTo hlead
  have hopened := result_openAt_lockfile hlead
  have htouch := Tree.touch_of_file hreaches hlock
  rw [path] at htouch
  rw [htouch] at hopened
  rw [openAt, result_bind, result_ofVerdict_apply]
  rw [located] at hmade hopened
  dsimp only at hmade hopened ⊢
  rw [hmade]
  dsimp only
  rw [result_bind_of_ok hopened]
  rfl

theorem openAt_ok (hopen : result (openAt network dataDir? f) t = (.ok d, u)) :
    d = located network dataDir? ∧ ∃ place t₁ content,
      t.makeDirectories d.directory f = (.ok (), t₁) ∧ t₁.LeadsTo d.directory place ∧
        d.Reaches place t₁ Lockfile.name ∧
        t₁.node? (place ++ [Lockfile.name]) ≠ some .directory ∧
        u = t₁.put (place ++ [Lockfile.name]) (.file content) := by
  rw [openAt, result_bind, result_ofVerdict_apply] at hopen
  rcases hmade : t.makeDirectories (join (dataDir?.getD defaultDataDir) network) f with ⟨_ | _, t₁⟩
  · rw [hmade] at hopen
    cases hopen
  rw [hmade] at hopen
  dsimp only at hopen
  rw [result_bind] at hopen
  have hlockfile := lockOpened (f := f) fun place node => Tree.leadsTo_of_makeDirectories hmade
  rcases hresult : result (Lockfile.openAt (join (dataDir?.getD defaultDataDir) network) f) t₁
    with ⟨r, t₂⟩
  rw [hresult] at hopen hlockfile
  cases hlockfile with
  | failed context cause => cases hopen
  | @opened place _ hlead htouch =>
    dsimp only at hopen
    rw [result_pure] at hopen
    cases hopen
    obtain ⟨before, name, htarget, hnode, content, rfl⟩ := Tree.change_ok htouch
    cases Tree.target_join hlead fileName_lock.toIsName fileName_lock.dots htarget
    exact ⟨rfl, place, t₁, content, hmade, hlead, htarget, hnode, rfl⟩

/-- What opening a store comes to: it is ready, and all that is new are directories and the file to
lock. -/
structure OpenedAt (network : String) (dataDir? : Option String) (d : Disk) (place : Place)
    (t u : Tree) : Prop where
  ready : Ready network dataDir? d place u
  wellNamed : t.WellNamed → u.WellNamed
  kept : ∀ p, place ++ [Lockfile.name] ≠ p →
    u.node? p = t.node? p ∨ t.node? p = none ∧ u.node? p = some .directory

theorem openedAt_of_openAt (hopen : result (openAt network dataDir? f) t = (.ok d, u)) :
    ∃ place, OpenedAt network dataDir? d place t u := by
  obtain ⟨hd, place, t₁, content, hmade, hlead, hreaches, hnode, rfl⟩ := openAt_ok hopen
  have hsame : Tree.SameDirectories t₁ (t₁.put (place ++ [Lockfile.name]) (.file content)) :=
    .put_file hnode content
  have hstate : (t.makeEach (ancestors d.directory) f).2 = t₁ := congrArg Prod.snd hmade
  refine ⟨place, ⟨hd, hlead.mono hsame.kept, hreaches.mono hsame.kept, content, ?_⟩, ?_, ?_⟩
  · rw [Tree.node?_put (by simp), if_pos rfl]
  · intro hnames
    have hmadeNames := hnames.makeEach (f := f) (ancestors d.directory)
    rw [hstate] at hmadeNames
    exact hmadeNames.put (Tree.fileName_of_target hreaches)
  · intro p hp
    have hmore := (Tree.makeEach_spec (f := f) t (ancestors d.directory)).1 p
    rw [hstate] at hmore
    rw [Tree.node?_put (by simp), if_neg hp]
    exact hmore.imp_right fun ⟨hnone, hdirectory, _⟩ => ⟨hnone, hdirectory⟩

end Disk

end AddressPool
