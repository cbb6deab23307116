import AddressPool.Proofs.Store.Disk.Files
import Mathlib.Tactic

/-!
# What the release of an owner leaves

Which files a release removes can be told from what is in the directory before it
(`Disk.withoutReservations`): the walk over the names of the directory asks for each file when it
comes to it, and what it has removed until then is of no matter to the others
(`Disk.result_releaseAmong`).  So nothing depends on the order in which the directory is listed
(`Disk.releaseOwner_exact`).  The names of markers protect a file only if they are texts, and a file
stays that is out of reach (`Disk.not_releaseOwner_by_prefix`).
-/

namespace AddressPool

open AddressPool.Files Attempt

namespace Disk

variable {d : Disk} {t : Tree} {place : Place} {owner : String} {name : Name} {names : List Name}

/-- A tree without the reservations of an owner in the directory at a place. -/
def withoutReservations (place : Place) (owner : String) (t : Tree) : Tree :=
  ⟨t.nodes.filter fun p node =>
    !(p.dropLast = place && p.getLast?.any (ReservationOf owner · node))⟩

def withoutAmong (place : Place) (owner : String) (names : List Name) (t : Tree) : Tree :=
  ⟨t.nodes.filter fun p node =>
    !(names.any fun name => p = place ++ [name] && ReservationOf owner name node)⟩

/-! ### Trees without reservations -/

theorem getElem?_withoutAmong (p : Place) : (withoutAmong place owner names t).nodes[p]? =
    t.nodes[p]?.filter fun node =>
      !(names.any fun name => p = place ++ [name] && ReservationOf owner name node) :=
  Std.ExtTreeMap.getElem?_filter'

theorem withoutAmong_nil : withoutAmong place owner [] t = t :=
  Tree.ext_getElem? fun p => by
    rw [getElem?_withoutAmong]
    cases t.nodes[p]? <;> rfl

theorem withoutAmong_cons_of_some {node : Node} (hnode : t.node? (place ++ [name]) = some node)
    (hreservation : ReservationOf owner name node) :
    withoutAmong place owner (name :: names) t =
      withoutAmong place owner names (t.erase (place ++ [name])) := by
  rw [Tree.node?, if_neg (by simp)] at hnode
  refine Tree.ext_getElem? fun p => ?_
  rw [getElem?_withoutAmong, getElem?_withoutAmong, Tree.erase, Std.ExtTreeMap.getElem?_erase]
  simp only [Std.LawfulEqOrd.compare_eq_iff_eq, List.any_cons]
  by_cases hp : place ++ [name] = p
  · rw [if_pos hp, ← hp, hnode]
    simp [hreservation]
  · have hother : ¬ p = place ++ [name] := fun h => hp h.symm
    simp [hp, hother]

theorem withoutAmong_cons_of_not
    (h : ∀ node, t.node? (place ++ [name]) = some node → ¬ ReservationOf owner name node) :
    withoutAmong place owner (name :: names) t = withoutAmong place owner names t := by
  refine Tree.ext_getElem? fun p => ?_
  rw [getElem?_withoutAmong, getElem?_withoutAmong]
  by_cases hp : p = place ++ [name]
  · cases hnode : t.nodes[p]? with
    | none => rfl
    | some node =>
      have hnot := h node (by rw [Tree.node?, if_neg (by simp), ← hp, hnode])
      simp [Option.filter_some, hnot]
  · simp [hp]

theorem withoutAmong_of_children (h : ∀ name ∈ t.children place, name ∈ names) :
    withoutAmong place owner names t = withoutReservations place owner t := by
  refine Tree.ext_getElem? fun p => ?_
  rw [getElem?_withoutAmong, withoutReservations, Std.ExtTreeMap.getElem?_filter']
  cases hnode : t.nodes[p]? with
  | none => rfl
  | some node =>
    -- what is there stays or goes by the last name of its place alone
    rw [Option.filter_some, Option.filter_some]
    rcases List.eq_nil_or_concat p with rfl | ⟨before, last, rfl⟩
    · simp
    · rw [List.concat_eq_append] at hnode ⊢
      have hsame : (names.any fun name =>
          before ++ [last] = place ++ [name] && ReservationOf owner name node) =
            (before = place && ReservationOf owner last node) := by
        rw [Bool.eq_iff_iff, List.any_eq_true]
        simp only [Bool.and_eq_true, decide_eq_true_eq]
        constructor
        · rintro ⟨name, -, hsplit, hreservation⟩
          obtain ⟨rfl, rfl⟩ := List.append_singleton_inj.mp hsplit
          exact ⟨rfl, hreservation⟩
        · rintro ⟨rfl, hreservation⟩
          have hmem : last ∈ t.children before :=
            Tree.mem_children.mpr ⟨node, by rwa [Tree.node?, if_neg (by simp)]⟩
          exact ⟨last, h last hmem, rfl, hreservation⟩
      rw [hsame, List.dropLast_concat, List.getLast?_concat, Option.any_some]

/-! ### The walk over the names -/

/-- The reservations of an owner in the directory can be reached by their paths. -/
def ReservationsReached (d : Disk) (place : Place) (owner : String) (t : Tree) : Prop :=
  ∀ name, HasReservation place owner t name → d.Reaches place t name

theorem isHeldBy_iff_hasReservation (hlead : t.LeadsTo d.directory place)
    (hname : ReservationName name → IsName name ∧ name ≠ "." ∧ name ≠ "..")
    (hreached : d.ReservationsReached place owner t) :
    d.isHeldBy t (Text.trim owner) name = true ↔ HasReservation place owner t name := by
  rw [isHeldBy_iff hlead hname]
  exact ⟨Holds.reservation, fun h => ⟨hreached name h, h⟩⟩

theorem ReservationsReached.erase {content : Content}
    (hreached : d.ReservationsReached place owner t)
    (hfile : t.node? (place ++ [name]) = some (.file content)) :
    d.ReservationsReached place owner (t.erase (place ++ [name])) := by
  have hsame : Tree.SameDirectories t (t.erase (place ++ [name])) :=
    .erase_file (by simp [hfile])
  rintro name' ⟨node, hnode, hreservation⟩
  rw [Tree.node?_erase (by simp)] at hnode
  split_ifs at hnode
  exact (hreached name' ⟨node, hnode, hreservation⟩).mono hsame.kept

/-- **The walk leaves the tree without the reservations that have one of the names.** -/
theorem result_releaseAmong (hlead : t.LeadsTo d.directory place) (hnames : ProperNames names)
    (hreached : d.ReservationsReached place owner t) :
    Action.result (d.releaseAmong (Text.trim owner) names) t =
      ((), withoutAmong place owner names t) := by
  induction names generalizing t with
  | nil =>
    rw [withoutAmong_nil]
    rfl
  | cons name names ih =>
    obtain ⟨hname, hnames⟩ := List.forall_mem_cons.mp hnames
    have hiff := isHeldBy_iff_hasReservation hlead hname hreached
    rw [releaseAmong, Action.result_bind]
    cases hheld : d.isHeldBy t (Text.trim owner) name with
    | true =>
      obtain ⟨node, hnode, hreservation⟩ := hiff.mp hheld
      have hholds := (isHeldBy_iff hlead hname).mp hheld
      obtain ⟨content, hfile⟩ := hholds.reservation.file
      have hsame : Tree.SameDirectories t (t.erase (place ++ [name])) :=
        .erase_file (by simp [hfile])
      -- the other reservations are what they were, and so are the ways to them
      rw [result_releaseIfHeld_of_holds hholds hheld, withoutAmong_cons_of_some hnode hreservation]
      exact ih (hlead.mono hsame.kept) hnames (hreached.erase hfile)
    | false =>
      have hnot : ∀ node, t.node? (place ++ [name]) = some node →
          ¬ ReservationOf owner name node := by
        intro node hnode hreservation
        rw [hiff.mpr ⟨node, hnode, hreservation⟩] at hheld
        cases hheld
      rw [result_releaseIfHeld_of_not hheld, withoutAmong_cons_of_not hnot]
      exact ih hlead hnames hreached

/-! ### The release -/

theorem reservationsReached_of_remove (hlead : t.LeadsTo d.directory place)
    (hnames : ProperNames (t.children place))
    (hremove : ∀ name, HasReservation place owner t name → ∃ u, t.remove (d.path name) = .ok u) :
    d.ReservationsReached place owner t := by
  intro name hreservation
  obtain ⟨u, hu⟩ := hremove name hreservation
  obtain ⟨before, last, htarget, -⟩ := Tree.remove_ok hu
  obtain ⟨content, hfile⟩ := hreservation.file
  have hmem : name ∈ t.children place := Tree.mem_children.mpr ⟨_, hfile⟩
  obtain ⟨hisName, hdots⟩ := hnames name hmem hreservation.reservationName
  cases Tree.target_join hlead hisName hdots htarget
  exact htarget

/-- **To release an owner leaves the tree without the owner's reservations, in whatever order the
directory is listed, if they can be removed.** -/
theorem releaseOwner_exact (hlead : t.LeadsTo d.directory place) (hnames : t.WellNamed)
    (hremove : ∀ name, HasReservation place owner t name → ∃ u, t.remove (d.path name) = .ok u) :
    result (d.releaseOwner owner) t = (.ok (), withoutReservations place owner t) ∧
    ∀ order : List Name → List Name, (∀ names, (order names).Perm names) →
      result (d.releaseOwnerBy order owner) t = (.ok (), withoutReservations place owner t) := by
  have hproper := properNames_of_wellNamed hnames place
  have hreached := reservationsReached_of_remove hlead hproper hremove
  have hby : ∀ order : List Name → List Name, (∀ names, (order names).Perm names) →
      result (d.releaseOwnerBy order owner) t = (.ok (), withoutReservations place owner t) := by
    intro order horder
    have hmem := fun name => (horder (t.children place)).mem_iff (a := name)
    have hrun := result_releaseAmong hlead (fun name h => hproper name ((hmem name).mp h)) hreached
    rw [withoutAmong_of_children fun name h => (hmem name).mpr h] at hrun
    rw [result_releaseOwnerBy hlead, hrun]
  refine ⟨?_, hby⟩
  rw [releaseOwner_eq]
  exact hby id fun names => .refl names

def poolDisk : Disk := ⟨"/pool", "/pool/lock"⟩

/-- A name that begins like those of markers and is no text. -/
def garbledMarker : Name := bytesOf "last_reserved_ip." ++ [0xFF]

/-- The directory of that store, with the owner in each kind of file and in a directory. -/
def poolTree : Tree :=
  (Tree.empty.put ["pool"] .directory).put ["pool", "sub"] .directory
    |>.put ["pool", "sub", "10.0.0.2"] (.file (bytesOf "dummy"))
    |>.put ["pool", "10.0.0.2"] (.file (bytesOf "dummy\n"))
    |>.put ["pool", "10.0.0.3"] (.file (bytesOf "other"))
    |>.put ["pool", "10.0.0.4"] (.file [0xFF])
    |>.put ["pool", "notes"] (.file (bytesOf " dummy"))
    |>.put ["pool", "lock"] (.file (bytesOf "dummy"))
    |>.put ["pool", "last_reserved_ip.0"] (.file (bytesOf "dummy"))
    |>.put ["pool", garbledMarker] (.file (bytesOf "dummy"))

theorem leadsTo_poolTree : poolTree.LeadsTo poolDisk.directory ["pool"] := by
  unfold Tree.LeadsTo
  decide +kernel

theorem wellNamed_poolTree : poolTree.WellNamed := by
  iterate 10 apply Tree.WellNamed.put_of_forall _ (by decide +kernel) (by decide +kernel)
  exact .empty

theorem removes_poolTree (owner : String) (name : Name)
    (h : HasReservation ["pool"] owner poolTree name) :
    ∃ u, poolTree.remove (poolDisk.path name) = .ok u := by
  obtain ⟨content, hfile⟩ := h.file
  have hname := wellNamed_poolTree _ _ _ hfile
  have hsize : poolDisk.directory.length + 1 + Tree.longestName ≤ Tree.longestPath := by
    decide
  have hreaches : poolDisk.Reaches ["pool"] poolTree name :=
    reaches_of_size_le leadsTo_poolTree hname ((Nat.add_le_add_left hname.length _).trans hsize)
  exact ⟨_, Tree.remove_of_file hreaches hfile⟩

theorem releaseOwner_exact_poolTree : ∃ u,
    poolTree.LeadsTo poolDisk.directory ["pool"] ∧ poolTree.WellNamed ∧
    (∀ name, HasReservation ["pool"] "dummy " poolTree name →
      ∃ u, poolTree.remove (poolDisk.path name) = .ok u) ∧
    result (poolDisk.releaseOwner "dummy ") poolTree = (.ok (), u) ∧
    result (poolDisk.releaseOwnerBy List.reverse "dummy ") poolTree = (.ok (), u) ∧
    (∀ name ∈ ([bytesOf "10.0.0.2", bytesOf "notes", garbledMarker] : List Name),
      u.node? ["pool", name] = none) ∧
    (∀ name ∈ ["10.0.0.3", "10.0.0.4", "lock", "last_reserved_ip.0", "sub"],
      u.node? ["pool", bytesOf name] = poolTree.node? ["pool", bytesOf name]) ∧
    u.node? ["pool", "sub", "10.0.0.2"] = poolTree.node? ["pool", "sub", "10.0.0.2"] := by
  have hremove := removes_poolTree "dummy "
  obtain ⟨hrelease, hby⟩ := releaseOwner_exact leadsTo_poolTree wellNamed_poolTree hremove
  refine ⟨_, leadsTo_poolTree, wellNamed_poolTree, hremove, hrelease,
    hby List.reverse fun names => names.reverse_perm, ?_, ?_, ?_⟩
  · decide +kernel
  · decide +kernel
  · decide +kernel

/-! ### Out of reach

A directory may be given by a path with many slashes at its end.  The more there are, the less room
is left for the names of files behind them, so that a file with a long name may be out of reach while
those with short names are not. -/

variable {n : Nat}

/-- The path of a directory of the root, with slashes behind it. -/
def slashed : Nat → String
  | 0 => "/d"
  | n + 1 => slashed n ++ "/"

theorem length_slashed (n : Nat) : (bytesOf (slashed n)).length = n + 2 := by
  induction n with
  | zero => decide
  | succ n ih =>
    have hslash : (bytesOf "/").length = 1 := by decide
    rw [slashed, bytesOf_append, List.length_append, ih, hslash]

theorem names_slashed (n : Nat) : Files.names (slashed n) = [bytesOf "d"] := by
  induction n with
  | zero => decide
  | succ n ih =>
    have hslash : bytesOf "/" = [slash] := by decide
    rw [slashed, bytesOf_append, hslash, names_append_singleton, ih]

theorem head?_slashed (n : Nat) : (bytesOf (slashed n)).head? = some slash := by
  induction n with
  | zero => decide
  | succ n ih => rw [slashed, bytesOf_append, List.head?_append, ih, Option.some_or]

theorem nul_notMem_slashed (n : Nat) : 0 ∉ bytesOf (slashed n) := by
  induction n with
  | zero => decide
  | succ n ih =>
    have hslash : 0 ∉ bytesOf "/" := by decide
    rw [slashed, bytesOf_append, List.mem_append, not_or]
    exact ⟨ih, hslash⟩

theorem leadsTo_slashed (h : t.node? ["d"] = some .directory)
    (hn : n + 2 ≤ Tree.longestPath) : t.LeadsTo (slashed n) ["d"] := by
  have hnul : ¬ (bytesOf (slashed n)).contains 0 = true := by simpa using nul_notMem_slashed n
  have hnonempty : ¬ (bytesOf (slashed n)).isEmpty = true := by
    intro hempty
    have hhead := head?_slashed n
    rw [List.isEmpty_iff.mp hempty] at hhead
    cases hhead
  have hlong : ¬ Tree.longestPath < (bytesOf (slashed n)).length := by
    rw [length_slashed]
    omega
  have hname : bytesOf "d" ≠ "." ∧ bytesOf "d" ≠ ".." ∧
      ¬ Tree.longestName < (bytesOf "d").length := by
    decide
  apply Tree.leadsTo_iff.mpr
  refine ⟨.entry [] "d" (endsInSlash (slashed n)), ?_, rfl, h⟩
  rw [Tree.target, if_neg hnul, if_neg hnonempty, if_neg hlong, names_slashed, Tree.follow,
    if_neg hname.1, if_neg hname.2.1, if_neg hname.2.2]

theorem directory_slashed (n : Nat) : (located (slashed n) none).directory = slashed n := by
  apply join_of_isAbsolute
  rw [isAbsolute, head?_slashed]
  rfl

/-- A name for a reservation that addresses are shorter than. -/
def longName : Name := "reservation-of-an-earlier-version"

/-- A directory with a reservation that is named so. -/
def earlierVersion : Tree :=
  ((Tree.empty.put ["d"] .directory).put ["d", Lockfile.name] (.file [])).put
    ["d", longName] (.file (bytesOf "dummy"))

theorem wellNamed_earlierVersion : earlierVersion.WellNamed := by
  iterate 3 apply Tree.WellNamed.put_of_forall _ (by decide) (by decide)
  exact .empty

theorem leadsTo_earlierVersion (hn : n ≤ 4072) :
    earlierVersion.LeadsTo (located (slashed n) none).directory ["d"] := by
  rw [directory_slashed]
  apply leadsTo_slashed (by decide +kernel)
  rw [Tree.longestPath]
  omega

theorem hasReservation_longName
    (h : t.node? ([bytesOf "d"] ++ [longName]) = some (.file (bytesOf "dummy"))) :
    HasReservation ["d"] "dummy" t longName :=
  ⟨_, h, by decide, "dummy", rfl, Text.trim_eq_trim_iff.mp rfl⟩

theorem tooLong_slashed (hn : 4061 ≤ n) :
    ¬ (join (slashed n) longName).length ≤ Tree.longestPath := by
  have hname : FileName longName := by decide
  obtain ⟨between, -, hjoin⟩ := join_eq (slashed n) hname.toIsName
  have hsize : longName.length = 33 := by decide
  rw [hjoin, List.length_append, List.length_append, length_slashed, hsize, Tree.longestPath]
  omega

theorem releaseOwner_keeps_longName (hn : 4061 ≤ n) (hroom : n ≤ 4072) : ∃ u,
    result ((located (slashed n) none).releaseOwner "dummy") earlierVersion = (.ok (), u) ∧
    HasReservation ["d"] "dummy" earlierVersion longName ∧
    u.node? ([bytesOf "d"] ++ [longName]) ≠ none := by
  have hlead := leadsTo_earlierVersion hroom
  have hproper := properNames_of_wellNamed wellNamed_earlierVersion ["d"]
  obtain ⟨u, hrelease, hreleased⟩ := released_releaseOwner hlead hproper "dummy"
  have hfile : earlierVersion.node? ([bytesOf "d"] ++ [longName]) =
      some (.file (bytesOf "dummy")) := by
    decide +kernel
  have hname : FileName longName := by decide
  have hkept : u.node? ([bytesOf "d"] ++ [longName]) = some (.file (bytesOf "dummy")) := by
    rw [hreleased.kept, hfile]
    intro name _ hholds heq
    obtain rfl : name = longName := by simpa using heq
    have hpath := (reaches_iff hlead hname).mp hholds.reaches
    rw [path, directory_slashed] at hpath
    exact tooLong_slashed hn hpath
  refine ⟨u, hrelease, hasReservation_longName hfile, ?_⟩
  rw [hkept]
  exact Option.some_ne_none _

/-- **A name that is no text does not protect a file, and a path that is too long does.** -/
theorem not_releaseOwner_by_prefix :
    (¬ ∀ (d : Disk) (t : Tree) (place : Place) (owner : String) (name : Name),
      t.LeadsTo d.directory place → t.WellNamed →
      (∀ name, HasReservation place owner t name → ∃ u, t.remove (d.path name) = .ok u) →
      bytesOf "last_reserved_ip." <+: name →
      (result (d.releaseOwner owner) t).2.node? (place ++ [name]) = t.node? (place ++ [name])) ∧
    ¬ ∀ (d : Disk) (t u : Tree) (place : Place) (owner : String) (name : Name),
      t.LeadsTo d.directory place → t.WellNamed →
      result (d.releaseOwner owner) t = (.ok (), u) →
      HasReservation place owner t name → u.node? (place ++ [name]) = none := by
  constructor
  · intro hkept
    have hmarker := hkept poolDisk poolTree ["pool"] "dummy" garbledMarker leadsTo_poolTree
      wellNamed_poolTree (removes_poolTree "dummy") (List.prefix_append _ _)
    revert hmarker
    decide +kernel
  · intro hgone
    -- the number stays a variable, so that nothing writes the path out
    obtain ⟨n, hn, hroom⟩ : ∃ n, 4061 ≤ n ∧ n ≤ 4072 := ⟨4070, by decide⟩
    obtain ⟨u, hrelease, hreservation, hthere⟩ := releaseOwner_keeps_longName hn hroom
    exact hthere (hgone _ _ _ _ _ longName (leadsTo_earlierVersion hroom) wellNamed_earlierVersion
      hrelease hreservation)

end Disk

end AddressPool
