import AddressPool.Proofs.Allocation.Gained
import AddressPool.Proofs.Allocation.Released
import AddressPool.Proofs.Command
import AddressPool.Proofs.Json.Codec
import AddressPool.Proofs.Store.Disk.Owners
import Mathlib.Tactic

/-!
# Getting addresses and giving them up again

A command that gets addresses adds their files to the directory of the network and changes nothing
else there but the markers (`Command.Gains`).  A command that gives them up then removes these files,
with all other reservations of the owner that can be reached by their paths (`Command.GivesUp`), and
after that there is nothing left for another one to do (`Command.add_del`).  A reservation whose path
is too long stays, and what is no text is no name of a marker
(`Command.not_add_del_removes_exactly`).
-/

namespace AddressPool

open AddressPool.Files Attempt

namespace Command

variable {config : Json.Bytes} {owner arguments : String} {t u v : Tree} {place : Place} {g : Grant}
  {s : Setup} {d : Disk} {c : Config} {part : Section}

/-! ### Getting addresses -/

/-- What a command that gets addresses has done: each lease has a file that was not there before and
holds the owner, no other reservation is new or has changed, and the markers hold what was given. -/
structure Gains (c : Config) (part : Section) (owner : String) (place : Place) (g : Grant)
    (t u : Tree) : Prop where
  version : g.version = c.version
  routes : g.routes = part.routes
  length : g.leases.length = (c.allSets part).length
  fresh : ∀ l ∈ g.leases, t.node? (place ++ [l.file]) = none
  files : ∀ l ∈ g.leases, u.node? (place ++ [l.file]) = some (.file (bytesOf (Text.trim owner)))
  distinct : (g.leases.map Lease.file).Nodup
  only : ∀ name content, Disk.ReservationName name →
    u.node? (place ++ [name]) = some (.file content) →
      t.node? (place ++ [name]) = some (.file content) ∨ ∃ l ∈ g.leases, l.file = name
  markers : ∀ i l, g.leases[i]? = some l →
    u.node? (place ++ [Disk.markerName i]) = some (.file (bytesOf l.address.address.text))

theorem add_ok (hadd : result (add config owner arguments) t = (.ok g, u)) :
    ∃ s d t₁, Setup.load config arguments = .ok s ∧
      result (Disk.openAt s.name s.dataDir?) t = (.ok d, t₁) ∧
      result (allocateAll d.store s.sets owner s.requested) t₁ = (.ok g.leases, u) ∧
      g.version = s.version ∧ g.routes = s.routes := by
  have hsetup := result_setup config arguments t
  cases hload : Setup.load config arguments with
  | error e =>
    rw [hload] at hsetup
    rw [add, result_bind_of_error hsetup] at hadd
    cases hadd
  | ok s =>
    rw [hload] at hsetup
    rcases result_resolver s t with ⟨r, hresolver⟩ | ⟨context, cause, hresolver⟩
    · rcases hopen : result (Disk.openAt s.name s.dataDir?) t with ⟨e | d, t₁⟩
      · rw [add, result_bind_of_ok hsetup, result_bind_of_ok hresolver,
          result_bind_of_error hopen] at hadd
        cases hadd
      · rw [result_add_of_opened hload hresolver hopen] at hadd
        rcases hall : result (allocateAll d.store s.sets owner s.requested) t₁ with ⟨_ | _, _⟩
        · rw [hall] at hadd
          cases hadd
        · rw [hall] at hadd
          cases hadd
          exact ⟨s, d, t₁, rfl, hopen, hall, rfl, rfl⟩
    · rw [add, result_bind_of_ok hsetup, result_bind_of_error hresolver] at hadd
      cases hadd

theorem gains_of_gained {t₁ : Tree} (hpart : Setup.OfConfig c part s)
    (hopened : Disk.OpenedAt s.name s.dataDir? d place t t₁)
    (hgained : d.Gained place owner (pools s.sets) g.leases t₁ u)
    (hversion : g.version = s.version) (hroutes : g.routes = s.routes) :
    Gains c part owner place g t u where
  version := hversion.trans hpart.version
  routes := hroutes.trans hpart.routes
  length := by
    rw [hgained.length, length_pools, hpart.length_sets]
  fresh l hl := by
    have hfree := (hgained.fresh l hl).1
    have hlock : l.file ≠ Lockfile.name := Disk.file_ne Disk.not_reservationName_lock
    rcases hopened.kept (place ++ [l.file]) (by simpa using hlock.symm) with hsame | ⟨hnone, -⟩
    · exact hsame.symm.trans hfree
    · exact hnone
  files := hgained.files
  distinct := hgained.distinct
  only name content hname hfile := by
    by_cases hlease : ∃ l ∈ g.leases, l.file = name
    · exact Or.inr hlease
    · refine Or.inl ?_
      have hmarkers : ∀ pool ∈ pools s.sets, place ++ [Disk.markerName pool.id] ≠ place ++ [name] := by
        intro pool _ heq
        obtain rfl : Disk.markerName pool.id = name := by simpa using heq
        exact Disk.not_reservationName_markerName pool.id hname
      have hlock : Lockfile.name ≠ name := by
        rintro rfl
        exact Disk.not_reservationName_lock hname
      rw [hgained.kept _ (by simpa using hlease) hmarkers] at hfile
      rcases hopened.kept (place ++ [name]) (by simpa using hlock) with hsame | ⟨-, hdirectory⟩
      · exact hsame.symm.trans hfile
      · rw [hdirectory] at hfile
        cases hfile
  markers i l hl := by
    have hi : i < s.sets.length := by
      rw [← length_pools, ← hgained.length]
      exact (List.getElem?_eq_some_iff.mp hl).1
    refine (hgained.markers i ⟨s.sets[i], i⟩ l ?_ hl).2
    rw [getElem?_pools, List.getElem?_eq_getElem hi]
    rfl

/-! ### Giving them up -/

/-- The reservations of an owner are removed from the directory at a path, as far as their paths are
not too long, and nothing else is changed. -/
structure GivesUp (directory : Path) (place : Place) (owner : String) (t u : Tree) : Prop where
  gone : ∀ name, Disk.HasReservation place owner t name →
    (join directory name).length ≤ Tree.longestPath → u.node? (place ++ [name]) = none
  kept : ∀ p, (∀ name, Disk.HasReservation place owner t name →
    (join directory name).length ≤ Tree.longestPath → place ++ [name] ≠ p) → u.node? p = t.node? p

theorem holds_iff (hlead : t.LeadsTo d.directory place) (hnames : t.WellNamed) (name : Name) :
    d.Holds place t owner name ↔ Disk.HasReservation place owner t name ∧
      (join d.directory name).length ≤ Tree.longestPath := by
  constructor
  · rintro ⟨hreaches, hreservation⟩
    obtain ⟨content, hfile⟩ := hreservation.file
    have hname := hnames place name _ hfile
    exact ⟨hreservation, (Disk.reaches_iff hlead hname).mp hreaches⟩
  · rintro ⟨hreservation, hpath⟩
    obtain ⟨content, hfile⟩ := hreservation.file
    have hname := hnames place name _ hfile
    exact ⟨(Disk.reaches_iff hlead hname).mpr hpath, hreservation⟩

theorem givesUp_of_released (hlead : t.LeadsTo d.directory place) (hnames : t.WellNamed)
    (h : d.Released place owner (t.children place) t u) : GivesUp d.directory place owner t u := by
  refine ⟨fun name hreservation hpath => ?_, fun p hp => h.kept p fun name _ hholds => ?_⟩
  · obtain ⟨content, hfile⟩ := hreservation.file
    exact h.gone name (Tree.mem_children.mpr ⟨_, hfile⟩)
      ((holds_iff hlead hnames name).mpr ⟨hreservation, hpath⟩)
  · obtain ⟨hreservation, hpath⟩ := (holds_iff hlead hnames name).mp hholds
    exact hp name hreservation hpath

theorem result_del_of_opened {f : Faults} (hload : Setup.load config arguments = .ok s)
    (hopen : result (Disk.openAt s.name s.dataDir? f) t = (.ok d, u)) :
    result (del config owner arguments f) t = result (releaseAll (d.store f) s.sets owner) u := by
  have hsetup := result_setup config arguments t
  rw [hload] at hsetup
  rw [del, result_bind_of_ok hsetup, result_bind_of_ok hopen, result_bind, result_lift,
    result_verdict]
  rcases result (releaseAll (d.store f) s.sets owner) u with ⟨_ | _, _⟩ <;> rfl

/-- **A command that gives up what an owner has does so, and no other command has anything left to
do.** -/
theorem del_of_ready (hload : Setup.load config arguments = .ok s) (hsets : s.sets ≠ [])
    (hready : Disk.Ready s.name s.dataDir? d place t) (hnames : t.WellNamed) (owner : String) :
    ∃ u, result (del config owner arguments) t = (.ok (), u) ∧
      GivesUp d.directory place owner t u ∧ result (del config owner arguments) u = (.ok (), u) := by
  have hproper := Disk.properNames_of_wellNamed hnames place
  obtain ⟨u, hrelease, hreleased, hagain⟩ := releaseAll_onDisk hsets hready.lead hproper owner
  have hready' : Disk.Ready s.name s.dataDir? d place u := by
    apply hready.mono hreleased.directories
    apply hreleased.kept
    intro name _ hholds heq
    obtain rfl : name = Lockfile.name := by simpa using heq
    exact Disk.not_reservationName_lock hholds.reservation.reservationName
  refine ⟨u, ?_, givesUp_of_released hready.lead hnames hreleased, ?_⟩
  · rw [result_del_of_opened hload (Disk.openAt_of_ready hready), hrelease]
  · rw [result_del_of_opened hload (Disk.openAt_of_ready hready'), hagain]

/-! ### One after the other -/

/-- **To get addresses and to give them up.**  A command that gets addresses gets one for each set of
its configuration; each has a file of its own that was not there before and holds the owner, the
markers hold the addresses, and no other reservation is new.  A command with the same configuration
and for the same owner then succeeds in removing all of these files and the other reservations of the
owner whose paths are not too long, and nothing else; and doing so again changes nothing. -/
theorem add_del (hnames : t.WellNamed) (hadd : result (add config owner arguments) t = (.ok g, u)) :
    ∃ c part s place, Config.codec.decode config = .ok c ∧ c.ipam? = some part ∧
      Setup.load config arguments = .ok s ∧ u.LeadsTo s.directory place ∧
      Gains c part owner place g t u ∧
      ∀ arguments' s', Setup.load config arguments' = .ok s' →
        ∃ v, result (del config owner arguments') u = (.ok (), v) ∧
          (∀ l ∈ g.leases, v.node? (place ++ [l.file]) = none) ∧
          GivesUp s.directory place owner u v ∧
          result (del config owner arguments') v = (.ok (), v) := by
  obtain ⟨s, d, t₁, hload, hopen, hall, hversion, hroutes⟩ := add_ok hadd
  obtain ⟨c, part, hdecode, hpart⟩ := Setup.exists_of_load hload
  obtain ⟨place, hopened⟩ := Disk.openedAt_of_openAt hopen
  have hgained := allocateAll_gained (Setup.canonicalized_of_load hload) hopened.ready.lead hall
  have hready := hgained.ready hopened.ready
  have hnames' := hgained.wellNamed (hopened.wellNamed hnames)
  have hdirectory : d.directory = s.directory := by
    rw [hready.disk]
    rfl
  refine ⟨c, part, s, place, hdecode, hpart.ipam, hload, hdirectory ▸ hready.lead,
    gains_of_gained hpart hopened hgained hversion hroutes, ?_⟩
  -- other arguments ask for other addresses, of the same sets in the same directory
  intro arguments' s' hload'
  obtain ⟨c', part', hdecode', hpart'⟩ := Setup.exists_of_load hload'
  obtain rfl : c' = c := Except.ok.inj (hdecode'.symm.trans hdecode)
  obtain ⟨hname, hdataDir, hsets⟩ := hpart.same hpart'
  rw [← hname, ← hdataDir] at hready
  obtain ⟨v, hdel, hgivesUp, hagain⟩ := del_of_ready hload' hpart'.sets_ne_nil hready hnames' owner
  refine ⟨v, hdel, fun l hl => ?_, hdirectory ▸ hgivesUp, hagain⟩
  have hreaches := (hgained.fresh l hl).2.mono hgained.directories.kept
  have hfile := hgained.files l hl
  apply hgivesUp.gone
  · exact ⟨_, hfile, Disk.reservationName_file l.address.address, _, rfl,
      Text.trim_eq_trim_iff.mp (Text.trim_trim owner)⟩
  · exact (Disk.reaches_iff hready.lead (Tree.fileName_of_target hreaches)).mp hreaches

/-- The directory of a network, in which an owner has had an address for longer, and a file with a
name that is no text. -/
def leftOver : Tree :=
  (((Tree.empty.put ["d"] .directory).put ["d", "n"] .directory).put
    ["d", "n", "10.9.9.9"] (.file (bytesOf "dummy\n"))).put
      ["d", "n", Disk.garbledMarker] (.file (bytesOf "dummy"))

theorem wellNamed_leftOver : leftOver.WellNamed := by
  iterate 4 apply Tree.WellNamed.put_of_forall _ (by decide +kernel) (by decide +kernel)
  exact .empty

theorem add_del_leftOver : ∃ g u v place, leftOver.WellNamed ∧
    result (add onePool "dummy" "") leftOver = (.ok g, u) ∧ g.leases.length = 1 ∧
    result (del onePool "dummy" "") u = (.ok (), v) ∧
    (∀ l ∈ g.leases, leftOver.node? (place ++ [l.file]) = none ∧
      u.node? (place ++ [l.file]) = some (.file (bytesOf (Text.trim "dummy"))) ∧
      v.node? (place ++ [l.file]) = none) ∧
    result (del onePool "dummy" "") v = (.ok (), v) := by
  have hrun : (result (add onePool "dummy" "") leftOver).1.toOption.map (·.leases.length) =
      some 1 := by
    decide +kernel
  rcases hadd : result (add onePool "dummy" "") leftOver with ⟨v, u⟩
  rw [hadd] at hrun
  obtain ⟨g, rfl, hlength⟩ := exists_ok_of_toOption hrun
  obtain ⟨_, _, s, place, -, -, hload, -, hgains, hdel⟩ := add_del wellNamed_leftOver hadd
  obtain ⟨v, hdel, hgone, -, hagain⟩ := hdel "" s hload
  refine ⟨g, u, v, place, wellNamed_leftOver, rfl, hlength, hdel, ?_, hagain⟩
  exact fun l hl => ⟨hgains.fresh l hl, hgains.files l hl, hgone l hl⟩

/-! ### Out of reach

The directory of a network may be given by a path with many slashes at its end (`Disk.slashed`). -/

variable {n : Nat}

open Disk (earlierVersion hasReservation_longName leadsTo_earlierVersion longName slashed)

theorem plain_slashed (n : Nat) : ∀ b ∈ bytesOf (slashed n), Json.Plain b := by
  induction n with
  | zero => decide +kernel
  | succ n ih =>
    rw [slashed, bytesOf_append, List.forall_mem_append]
    exact ⟨ih, by decide +kernel⟩

def smallBlock : Section where
  kind := "host-local"
  subnet? := some ⟨.ofNat .v4 (10 * 2 ^ 24), 30, by decide⟩

/-- A network that is kept in a directory with many slashes behind its path. -/
def slashedNetwork (n : Nat) : Config where
  name := slashed n
  version := "0.3.1"
  ipam? := some smallBlock

def slashedConfig (n : Nat) : Json.Bytes :=
  bytesOf ("[\"" ++ slashed n ++ "\",\"0.3.1\",[\"host-local\",\"10.0.0.0/30\"]]")

theorem decode_slashedConfig (n : Nat) :
    Config.codec.decode (slashedConfig n) = .ok (slashedNetwork n) := by
  open Json in
  have hopening : bytesOf "[\"" = [ascii '[', ascii '"'] := by decide +kernel
  have hrest : bytesOf "\",\"0.3.1\",[\"host-local\",\"10.0.0.0/30\"]]" =
      ascii '"' :: ascii ',' :: ascii '"' :: (bytesOf "0.3.1" ++ ascii '"' :: ascii ',' ::
        ascii '[' :: (bytesOf "\"host-local\",\"10.0.0.0/30\"]" ++ [ascii ']'])) := by
    decide +kernel
  have hsection : Section.codec.read (ascii '[' ::
      (bytesOf "\"host-local\",\"10.0.0.0/30\"]" ++ [ascii ']'])) =
        .ok (smallBlock, [ascii ']']) := by
    decide +kernel
  have hversion : ∀ b ∈ bytesOf "0.3.1", Plain b := by decide +kernel
  apply decode_eq
  rw [slashedConfig, bytesOf_append, bytesOf_append, hopening, hrest, Config.codec,
    List.append_assoc, List.cons_append, List.singleton_append, read_record_array, Config.fields]
  rw [elements_cons rfl (read_defaulted "name" (read_string (plain_slashed n) _)),
    elements_cons rfl (read_defaulted "cniVersion" (read_string hversion _)),
    elements_cons rfl (read_optional "ipam" rfl (by decide) hsection),
    elements_closed (by simp [Field.defaulted, Field.optional])]
  rfl

/-- What the network is set up to. -/
def slashedSetup (n : Nat) : Setup where
  name := slashed n
  version := "0.3.1"
  kind := "host-local"
  routes := []
  dataDir? := none
  resolverFile? := none
  sets := [tightSet 0]
  requested := []

theorem load_slashedConfig (n : Nat) : Setup.load (slashedConfig n) "" = .ok (slashedSetup n) := by
  have hpart : (slashedNetwork n).ipam? = some smallBlock := rfl
  have hfirst : Arguments.requested "" = .ok none := rfl
  have hothers : Setup.addresses (slashedNetwork n).wished = .ok [] := rfl
  have hnonempty : (slashedNetwork n).allSets smallBlock ≠ [] := List.cons_ne_nil _ _
  have hsets : Setup.canonicalSets 0 ((slashedNetwork n).allSets smallBlock) =
      .ok [tightSet 0] := rfl
  have hfew : Setup.tooMany "0.3.1" [tightSet 0] = false := by decide +kernel
  have hdisjoint : Setup.firstOverlap? [tightSet 0] = none := rfl
  rw [Setup.load, decode_slashedConfig]
  exact Setup.ofConfig_eq hpart hfirst hothers hnonempty hsets hfew hdisjoint

theorem directory_slashedSetup (n : Nat) :
    (slashedSetup n).directory = (Disk.located (slashed n) none).directory := rfl

theorem reaches_slashed (hn : n ≤ 4072) {name : Name} (hname : FileName name)
    (hsize : name.length ≤ 20) :
    (Disk.located (slashed n) none).Reaches ["d"] earlierVersion name := by
  apply Disk.reaches_of_size_le (leadsTo_earlierVersion hn) hname
  rw [Disk.directory_slashed, Disk.length_slashed, Tree.longestPath]
  omega

theorem ready_earlierVersion (hn : n ≤ 4072) :
    Disk.Ready (slashed n) none (Disk.located (slashed n) none) ["d"] earlierVersion where
  disk := rfl
  lead := leadsTo_earlierVersion hn
  reaches := reaches_slashed hn Disk.fileName_lock (by decide)
  lock := ⟨[], by decide +kernel⟩

theorem allocateAll_earlierVersion (hn : n ≤ 4072) : ∃ ls u,
    result (allocateAll (Disk.located (slashed n) none).store [tightSet 0] "dummy" [])
      earlierVersion = (.ok ls, u) := by
  have hs : (tightSet 0).Sound := (canonicalized_tightSets _ List.mem_cons_self).sound
  let p : Position (tightSet 0) := ⟨⟨0, by decide⟩, .ofNat .v4 (10 * 2 ^ 24 + 2)⟩
  have hcandidates : (tightSet 0).candidatesAfter none = [p] := rfl
  have hmarker : (Disk.located (slashed n) none).Reaches ["d"] earlierVersion
      (Disk.markerName 0) := reaches_slashed hn (by decide) (by decide)
  have hunmarked : earlierVersion.node? ([bytesOf "d"] ++ [Disk.markerName 0]) = none := by
    decide +kernel
  have hreserve : result ((Disk.located (slashed n) none).store.reserve "dummy" p.address 0)
      earlierVersion = (.ok true, Disk.reservedIn ["d"] "dummy" p.address 0 earlierVersion) := by
    apply (Disk.reserve_eq_true_iff (leadsTo_earlierVersion hn)).mpr
    refine ⟨reaches_slashed hn (Disk.fileName_file _) (by decide), hmarker, by decide +kernel, ?_,
      rfl⟩
    rw [hunmarked]
    simp
  obtain ⟨l, hl⟩ : ∃ l, result (Pool.acquire ⟨tightSet 0, 0⟩
      (Disk.located (slashed n) none).store "dummy" none) earlierVersion = (.ok l, _) :=
    Pool.acquire_of_reserve hs (Disk.lastReserved_of_none hmarker hunmarked) hcandidates hreserve
  have heach := Allocation.result_acquireEach_cons (Disk.located (slashed n) none).store "dummy"
    .pending [] [] [] ⟨tightSet 0, 0⟩ earlierVersion
  rw [List.find?_nil, hl] at heach
  exact ⟨[l], _, heach⟩

theorem node?_longName_of_gained {pools : List Pool} {ls : List Lease}
    (h : d.Gained ["d"] "dummy" pools ls earlierVersion u) :
    u.node? ([bytesOf "d"] ++ [longName]) = some (.file (bytesOf "dummy")) := by
  have hfile : earlierVersion.node? ([bytesOf "d"] ++ [longName]) =
      some (.file (bytesOf "dummy")) := by
    decide +kernel
  rw [h.kept, hfile]
  · intro l hl heq
    have hfree := (h.fresh l hl).1
    rw [heq, hfile] at hfree
    cases hfree
  · intro pool _ heq
    have hname : Disk.markerName pool.id = longName := by simpa using heq
    have hmarker := Disk.not_reservationName_markerName pool.id
    rw [hname] at hmarker
    exact hmarker (by decide)

theorem longName_stays (hn : 4061 ≤ n) (hroom : n ≤ 4072) : ∃ g u v,
    result (add (slashedConfig n) "dummy" "") earlierVersion = (.ok g, u) ∧
    result (del (slashedConfig n) "dummy" "") u = (.ok (), v) ∧
    u.LeadsTo (slashedSetup n).directory ["d"] ∧ Disk.HasReservation ["d"] "dummy" u longName ∧
    v.node? ([bytesOf "d"] ++ [longName]) ≠ none := by
  have hload := load_slashedConfig n
  have hready := ready_earlierVersion hroom
  obtain ⟨ls, u, hall⟩ := allocateAll_earlierVersion hroom
  have hadd : ∃ g, result (add (slashedConfig n) "dummy" "") earlierVersion = (.ok g, u) := by
    have hresolver : result (resolver (slashedSetup n)) earlierVersion =
        (.ok {}, earlierVersion) := rfl
    rw [result_add_of_opened hload hresolver (Disk.openAt_of_ready hready), slashedSetup, hall]
    exact ⟨_, rfl⟩
  obtain ⟨g, hadd⟩ := hadd
  have hsets : ∀ s ∈ [tightSet 0], s.Canonicalized := fun s hs =>
    canonicalized_tightSets s (List.mem_append_left [tightSet 1] hs)
  have hgained := allocateAll_gained hsets hready.lead hall
  have hready' := hgained.ready hready
  have hnames := hgained.wellNamed Disk.wellNamed_earlierVersion
  obtain ⟨v, hdel, hgivesUp, -⟩ := del_of_ready hload (List.cons_ne_nil _ _) hready' hnames "dummy"
  have hu := node?_longName_of_gained hgained
  have hv : v.node? ([bytesOf "d"] ++ [longName]) = u.node? ([bytesOf "d"] ++ [longName]) := by
    apply hgivesUp.kept
    intro name _ hpath heq
    obtain rfl : name = longName := by simpa using heq
    rw [Disk.directory_slashed] at hpath
    exact Disk.tooLong_slashed hn hpath
  refine ⟨g, u, v, hadd, hdel, ?_, hasReservation_longName hu, ?_⟩
  · rw [directory_slashedSetup]
    exact hready'.lead
  · rw [hv, hu]
    exact Option.some_ne_none _

theorem garbledMarker_goes : ∃ g u v,
    result (add onePool "dummy" "") leftOver = (.ok g, u) ∧
    result (del onePool "dummy" "") u = (.ok (), v) ∧
    u.node? ["d", "n", Disk.garbledMarker] = some (.file (bytesOf "dummy")) ∧
    v.node? ["d", "n", Disk.garbledMarker] = none := by
  have hrun : (result (add onePool "dummy" "") leftOver).1.isOk = true ∧
      (result (add onePool "dummy" "") leftOver).2.node? ["d", "n", Disk.garbledMarker] =
        some (.file (bytesOf "dummy")) ∧
      (result (del onePool "dummy" "")
        (result (add onePool "dummy" "") leftOver).2).1.isOk = true ∧
      (result (del onePool "dummy" "") (result (add onePool "dummy" "") leftOver).2).2.node?
        ["d", "n", Disk.garbledMarker] = none := by
    decide +kernel
  rcases hadd : result (add onePool "dummy" "") leftOver with ⟨_ | g, u⟩
  · rw [hadd] at hrun
    exact absurd hrun.1 Bool.noConfusion
  · rw [hadd] at hrun
    obtain ⟨-, hthere, hok, hgone⟩ := hrun
    rcases hdel : result (del onePool "dummy" "") u with ⟨_ | _, v⟩
    · rw [hdel] at hok
      exact absurd hok Bool.noConfusion
    · rw [hdel] at hgone
      exact ⟨g, u, v, rfl, hdel, hthere, hgone⟩

/-- **A name that is no text does not protect a file, and a path that is too long does.** -/
theorem not_add_del_removes_exactly :
    (¬ ∀ (config : Json.Bytes) (owner arguments : String) (t u v : Tree) (g : Grant) (s : Setup)
      (place : Place), t.WellNamed → result (add config owner arguments) t = (.ok g, u) →
      result (del config owner arguments) u = (.ok (), v) → Setup.load config arguments = .ok s →
      u.LeadsTo s.directory place →
      ∀ name, Disk.HasReservation place owner u name → v.node? (place ++ [name]) = none) ∧
    ¬ ∀ (config : Json.Bytes) (owner arguments : String) (t u v : Tree) (g : Grant) (place : Place)
      (name : Name), t.WellNamed → result (add config owner arguments) t = (.ok g, u) →
      result (del config owner arguments) u = (.ok (), v) → bytesOf "last_reserved_ip." <+: name →
      v.node? (place ++ [name]) = u.node? (place ++ [name]) := by
  constructor
  · intro hremoves
    -- the number stays a variable, so that nothing writes the path out
    obtain ⟨n, hn, hroom⟩ : ∃ n, 4061 ≤ n ∧ n ≤ 4072 := ⟨4070, by decide⟩
    obtain ⟨g, u, v, hadd, hdel, hlead, hreservation, hthere⟩ := longName_stays hn hroom
    exact hthere (hremoves _ _ _ _ _ _ _ _ _ Disk.wellNamed_earlierVersion hadd hdel
      (load_slashedConfig n) hlead longName hreservation)
  · intro hkept
    obtain ⟨g, u, v, hadd, hdel, hthere, hgone⟩ := garbledMarker_goes
    have hsame := hkept _ _ _ _ _ _ _ ["d", "n"] Disk.garbledMarker wellNamed_leftOver hadd hdel
      (List.prefix_append _ _)
    rw [List.cons_append, List.cons_append, List.nil_append, hthere, hgone] at hsame
    cases hsame

end Command

end AddressPool
