import AddressPool.Proofs.Allocation.Frame
import AddressPool.Proofs.Command.RoundTrip
import Mathlib.Tactic

/-!
# What commands leave alone

A command works in the directory of its network.  Elsewhere it makes at most directories on the way
to that one, and in it everything stays that is neither a reservation of the owner nor the marker of
a set, whether the command fails or not (`Command.LeavesRest`).  A command that gives up what an
owner has changes no marker at all (`Command.KeepsMarkers`), and one that fails before it opens its
store changes nothing (`Command.leavesRest`).  All this is so whatever fails on the way.
-/

namespace AddressPool

open AddressPool.Files Attempt
open Lockfile (failed)

namespace Command

variable {config : Json.Bytes} {owner arguments : String} {directory : Path} {markers : Nat}
  {t t₁ u v : Tree} {place : Place} {s : Setup} {f : Faults}

/-- What is not a command's own is left alone.  Its own are the reservations of the owner and the
markers of the sets, of which there are `markers`, all in the directory at a path; outside of it,
all that is new are the directories on the way to it, and it itself. -/
structure LeavesRest (directory : Path) (owner : String) (markers : Nat) (t u : Tree) : Prop where
  outside : ∀ p, (∀ place name, u.LeadsTo directory place → place ++ [name] ≠ p) →
    u.node? p = t.node? p ∨
      t.node? p = none ∧ u.node? p = some .directory ∧
        ∃ path ∈ ancestors directory, u.LeadsTo path p
  inside : ∀ place name node, u.LeadsTo directory place →
    t.node? (place ++ [name]) = some node → ¬ Disk.OwnFile owner markers name node →
      u.node? (place ++ [name]) = some node

/-- The markers in the directory at a path are the same, and no more. -/
def KeepsMarkers (directory : Path) (t u : Tree) : Prop :=
  ∀ (place : Place) (rest : String) (content : Content), u.LeadsTo directory place →
    (u.node? (place ++ [bytesOf ("last_reserved_ip." ++ rest)]) = some (.file content) ↔
      t.node? (place ++ [bytesOf ("last_reserved_ip." ++ rest)]) = some (.file content))

/-! ### Behind the opening of a store -/

theorem leavesRest_of_ways (h : Tree.Ways (ancestors directory) t u) :
    LeavesRest directory owner markers t u where
  outside p _ := h p
  inside _ _ _ _ hnode _ := h.node?_of_some hnode

theorem leavesRest_of_confined (hways : Tree.Ways (ancestors directory) t t₁)
    (hlead : t₁.LeadsTo directory place) (h : Disk.Confined place owner markers t₁ u) :
    LeavesRest directory owner markers t u := by
  have hlead' := hlead.mono h.directories.kept
  constructor
  · intro p hp
    rw [h.outside p fun name => hp place name hlead']
    refine (hways p).imp_right ?_
    rintro ⟨hnone, hdirectory, path, hpath, hway⟩
    exact ⟨hnone, hdirectory, path, hpath, hway.mono h.directories.kept⟩
  · rintro place' name node hthere hnode hown
    obtain rfl := hlead'.unique hthere
    exact h.node?_of_not (hways.node?_of_some hnode) hown

theorem not_ownName_marker (rest : String) :
    ¬ Disk.OwnName 0 (bytesOf ("last_reserved_ip." ++ rest)) := by
  rintro (hlock | hreservation | ⟨i, hi, -⟩)
  · have hlength := congrArg List.length hlock
    have hstem : (bytesOf "last_reserved_ip.").length = 17 := by decide
    have hname : Lockfile.name.length = 4 := by decide
    rw [bytesOf_append, List.length_append, hstem, hname] at hlength
    omega
  · exact hreservation.2 rest rfl
  · exact Nat.not_lt_zero i hi

theorem keepsMarkers_of_ways (h : Tree.Ways (ancestors directory) t u) :
    KeepsMarkers directory t u := by
  intro place rest content _
  refine ⟨fun hfile => ?_, h.node?_of_some⟩
  rcases h (place ++ [bytesOf ("last_reserved_ip." ++ rest)]) with hsame | ⟨-, hdirectory, -⟩
  · rwa [hsame] at hfile
  · rw [hdirectory] at hfile
    cases hfile

theorem keepsMarkers_of_confined (hways : Tree.Ways (ancestors directory) t t₁)
    (hlead : t₁.LeadsTo directory place) (h : Disk.Confined place owner 0 t₁ u) :
    KeepsMarkers directory t u := by
  intro place' rest content hthere
  obtain rfl := hthere.unique (hlead.mono h.directories.kept)
  have hsame : u.node? (place ++ [bytesOf ("last_reserved_ip." ++ rest)]) =
      t₁.node? (place ++ [bytesOf ("last_reserved_ip." ++ rest)]) := by
    by_contra hchanged
    exact not_ownName_marker rest (h.inside _ hchanged).1
  rw [hsame]
  exact keepsMarkers_of_ways hways place rest content hlead

theorem confined_of_opened (h : Disk.Opens directory t t₁ u) (hlead : u.LeadsTo directory place)
    (hv : Disk.Confined place owner markers u v) :
    t₁.LeadsTo directory place ∧ Disk.Confined place owner markers t₁ v := by
  rcases h.lock with rfl | ⟨place', hlead', hlock⟩
  · exact ⟨hlead, hv⟩
  · have hopened := hlock owner markers
    obtain rfl := hlead.unique (hlead'.mono hopened.directories.kept)
    exact ⟨hlead', hopened.trans hv⟩

theorem leavesRest_of_opens (h : Disk.Opens directory t t₁ u) :
    LeavesRest directory owner markers t u := by
  rcases h.lock with rfl | ⟨place, hlead, hlock⟩
  · exact leavesRest_of_ways h.ways
  · exact leavesRest_of_confined h.ways hlead (hlock owner markers)

theorem keepsMarkers_of_opens (h : Disk.Opens directory t t₁ u) : KeepsMarkers directory t u := by
  rcases h.lock with rfl | ⟨place, hlead, hlock⟩
  · exact keepsMarkers_of_ways h.ways
  · exact keepsMarkers_of_confined h.ways hlead (hlock "" 0)

/-! ### Commands -/

theorem result_of_load_error {e : Error} (hload : Setup.load config arguments = .error e) :
    result (add config owner arguments f) t = (.error e, t) ∧
      result (del config owner arguments f) t = (.error e, t) := by
  have hsetup := result_setup config arguments t
  rw [hload] at hsetup
  exact ⟨by rw [add, result_bind_of_error hsetup], by rw [del, result_bind_of_error hsetup]⟩

theorem result_of_resolver_error {path : String} {fault : Fault}
    (hload : Setup.load config arguments = .ok s) (hpath : s.resolverFile? = some path)
    (hread : f.guarded .read path t (t.readText path) = .error fault) :
    result (add config owner arguments f) t = (.error (failed "read" path fault), t) := by
  have hsetup := result_setup config arguments t
  rw [hload] at hsetup
  have hresolver : result (resolver s f) t = (.error (failed "read" path fault), t) := by
    rw [resolver, hpath]
    dsimp only
    rw [resolverIn, result_ofVerdict_apply, hread]
  rw [add, result_bind_of_ok hsetup, result_bind_of_error hresolver]

theorem leavesRest_add (hnames : t.WellNamed) (hload : Setup.load config arguments = .ok s)
    (f : Faults) (owner : String) :
    LeavesRest s.directory owner s.sets.length t (result (add config owner arguments f) t).2 := by
  have hsetup := result_setup config arguments t
  rw [hload] at hsetup
  rcases result_resolver s t with ⟨r, hresolver⟩ | ⟨context, cause, hresolver⟩
  · obtain ⟨t₁, hopens⟩ := Disk.opens_openAt s.name s.dataDir? t f
    rcases hopen : result (Disk.openAt s.name s.dataDir? f) t with ⟨e | d, t₂⟩
    · rw [hopen] at hopens
      rw [add, result_bind_of_ok hsetup, result_bind_of_ok hresolver, result_bind_of_error hopen]
      exact leavesRest_of_opens hopens
    · obtain ⟨place, hopened⟩ := Disk.openedAt_of_openAt hopen
      obtain ⟨rfl, hlead, -, -⟩ := hopened.ready
      have hall := allocateAll_confined hlead (hopened.wellNamed hnames) f s.sets owner s.requested
      rw [hopen] at hopens
      rw [result_add_of_opened hload hresolver hopen]
      obtain ⟨hlead₁, hconfined⟩ := confined_of_opened hopens hlead hall
      have hrest := leavesRest_of_confined hopens.ways hlead₁ hconfined
      rcases hresult : result (allocateAll _ s.sets owner s.requested) t₂ with ⟨e | ls, v⟩
      all_goals
        rw [hresult] at hrest
        exact hrest
  · rw [add, result_bind_of_ok hsetup, result_bind_of_error hresolver]
    exact leavesRest_of_ways (.refl _ t)

theorem leavesRest_del (hnames : t.WellNamed) (hload : Setup.load config arguments = .ok s)
    (f : Faults) (owner : String) :
    LeavesRest s.directory owner 0 t (result (del config owner arguments f) t).2 ∧
      KeepsMarkers s.directory t (result (del config owner arguments f) t).2 := by
  have hsetup := result_setup config arguments t
  rw [hload] at hsetup
  obtain ⟨t₁, hopens⟩ := Disk.opens_openAt s.name s.dataDir? t f
  rcases hopen : result (Disk.openAt s.name s.dataDir? f) t with ⟨e | d, t₂⟩
  · rw [hopen] at hopens
    rw [del, result_bind_of_ok hsetup, result_bind_of_error hopen]
    exact ⟨leavesRest_of_opens hopens, keepsMarkers_of_opens hopens⟩
  · obtain ⟨place, hopened⟩ := Disk.openedAt_of_openAt hopen
    obtain ⟨rfl, hlead, -, -⟩ := hopened.ready
    have hall := releaseAll_confined hlead (hopened.wellNamed hnames) f s.sets owner
    rw [hopen] at hopens
    rw [result_del_of_opened hload hopen]
    obtain ⟨hlead₁, hconfined⟩ := confined_of_opened hopens hlead hall
    exact ⟨leavesRest_of_confined hopens.ways hlead₁ hconfined,
      keepsMarkers_of_confined hopens.ways hlead₁ hconfined⟩

/-- **A command leaves alone what is not its own.** If its configuration is refused, or the
resolver settings that go into a grant cannot be read, then it changes nothing.  Otherwise it may
fail or not: outside the directory of the network nothing changes but that this directory and
those on the way to it are made, and in it everything stays but reservations of the owner and the
markers of the sets.  Giving up what an owner has changes no markers either. -/
theorem leavesRest (hnames : t.WellNamed) (f : Faults) (config : Json.Bytes)
    (owner arguments : String) :
    (∀ e, Setup.load config arguments = .error e →
      result (add config owner arguments f) t = (.error e, t) ∧
        result (del config owner arguments f) t = (.error e, t)) ∧
    ∀ s, Setup.load config arguments = .ok s →
      (∀ (path : String) (fault : Fault), s.resolverFile? = some path →
        f.guarded .read path t (t.readText path) = .error fault →
          result (add config owner arguments f) t = (.error (failed "read" path fault), t)) ∧
      LeavesRest s.directory owner s.sets.length t (result (add config owner arguments f) t).2 ∧
      LeavesRest s.directory owner 0 t (result (del config owner arguments f) t).2 ∧
      KeepsMarkers s.directory t (result (del config owner arguments f) t).2 := by
  refine ⟨fun e => result_of_load_error, fun s hload => ⟨fun path fault => ?_, ?_, ?_⟩⟩
  · exact result_of_resolver_error hload
  · exact leavesRest_add hnames hload f owner
  · exact leavesRest_del hnames hload f owner

def treeOf (entries : List (Place × Node)) : Tree :=
  entries.foldl (fun t entry => t.put entry.1 entry.2) .empty

theorem wellNamed_treeOf {entries : List (Place × Node)}
    (h : ∀ entry ∈ entries, entry.1 ≠ [] ∧ ∀ name ∈ entry.1, FileName name) :
    (treeOf entries).WellNamed := by
  refine List.foldlRecOn entries _ Tree.WellNamed.empty fun t ht entry hentry => ?_
  exact ht.put_of_forall (h entry hentry).1 (h entry hentry).2 entry.2

/-- The directory of a network, with a reservation of one owner and other things next to it, and a
file outside. -/
def shared : Tree :=
  treeOf [(["d"], .directory), (["d", "n"], .directory),
    (["d", "10.9.9.9"], .file (bytesOf "dummy")),
    (["d", "n", "10.9.9.9"], .file (bytesOf "dummy\n")),
    (["d", "n", "10.9.9.8"], .file (bytesOf "other")), (["d", "n", "10.1.2.2"], .directory),
    (["d", "n", "last_reserved_ip.1"], .file (bytesOf "dummy")),
    (["d", "n", Disk.garbledMarker], .file (bytesOf "dummy"))]

theorem wellNamed_shared : shared.WellNamed :=
  wellNamed_treeOf (by decide +kernel)

def resolvedPool : Json.Bytes :=
  bytesOf ("\x7b\"cniVersion\":\"0.3.1\",\"name\":\"n\",\"ipam\":\x7b\"type\":\"host-local\"," ++
    "\"dataDir\":\"/d\",\"subnet\":\"10.1.2.0/30\",\"resolvConf\":\"/r\"\x7d\x7d")

/-- A disk that has room for two more bytes, and locks that are not given back. -/
def fullDisk : Faults where
  stops access _ _ := if access = .write || access = .unlock then some (.other "no room") else none
  written _ _ := some 2

theorem leavesRest_shared : shared.WellNamed ∧
    (∃ s, Setup.load onePool "" = .ok s ∧
      (result (add onePool "dummy" "" fullDisk) shared).1.isOk = false ∧
      LeavesRest s.directory "dummy" s.sets.length shared
        (result (add onePool "dummy" "" fullDisk) shared).2 ∧
      LeavesRest s.directory "dummy" 0 shared (result (del onePool "dummy" "" fullDisk) shared).2 ∧
      KeepsMarkers s.directory shared (result (del onePool "dummy" "" fullDisk) shared).2) ∧
    (∃ e, result (add onePool "dummy" "x") shared = (.error e, shared) ∧
      result (del onePool "dummy" "x") shared = (.error e, shared)) ∧
    ∃ e, result (add resolvedPool "dummy" "") shared = (.error e, shared) := by
  have hrefused : (Setup.load onePool "x").isOk = false := by decide +kernel
  have hsets : (Setup.load onePool "").toOption.map (·.sets.length) = some 1 := by decide +kernel
  have hfails : (result (add onePool "dummy" "" fullDisk) shared).1.isOk = false := by decide +kernel
  have hresolver : (Setup.load resolvedPool "").toOption.map Setup.resolverFile? =
      some (some "/r") := by
    decide +kernel
  have hread : (shared.readText "/r") = .error .notFound := by decide +kernel
  refine ⟨wellNamed_shared, ?_, ?_, ?_⟩
  · obtain ⟨s, hload, -⟩ := exists_ok_of_toOption hsets
    have hrest := (leavesRest wellNamed_shared fullDisk onePool "dummy" "").2 s hload
    exact ⟨s, hload, hfails, hrest.2⟩
  · cases hsetup : Setup.load onePool "x" with
    | error e => exact ⟨e, (leavesRest wellNamed_shared {} onePool "dummy" "x").1 e hsetup⟩
    | ok s =>
      rw [hsetup] at hrefused
      cases hrefused
  · obtain ⟨s, hload, hpath⟩ := exists_ok_of_toOption hresolver
    have hrest := (leavesRest wellNamed_shared {} resolvedPool "dummy" "").2 s hload
    exact ⟨_, hrest.1 "/r" .notFound hpath hread⟩

def detour : Json.Bytes :=
  bytesOf ("\x7b\"cniVersion\":\"0.3.1\",\"name\":\"n\",\"ipam\":\x7b\"type\":\"host-local\"," ++
    "\"dataDir\":\"/a/../b\",\"subnet\":\"10.1.2.0/30\"\x7d\x7d")

theorem del_shared : ∃ s, Setup.load onePool "" = .ok s ∧
    (result (del onePool "dummy" "") shared).2.LeadsTo s.directory ["d", "n"] ∧
    shared.node? ["d", "n", Disk.garbledMarker] = some (.file (bytesOf "dummy")) ∧
    (result (del onePool "dummy" "") shared).2.node? ["d", "n", Disk.garbledMarker] = none := by
  have hdirectory : (Setup.load onePool "").toOption.map Setup.directory = some "/d/n" := by
    decide +kernel
  obtain ⟨s, hload, hdirectory⟩ := exists_ok_of_toOption hdirectory
  refine ⟨s, hload, ?_, ?_, ?_⟩
  · rw [Tree.LeadsTo, hdirectory]
    decide +kernel
  all_goals decide +kernel

theorem del_detour : ∃ s, Setup.load detour "" = .ok s ∧
    (result (del detour "dummy" "") Tree.empty).2.LeadsTo s.directory ["b", "n"] ∧
    Tree.empty.node? ["a"] = none ∧
    (result (del detour "dummy" "") Tree.empty).2.node? ["a"] = some .directory := by
  have hdirectory : (Setup.load detour "").toOption.map Setup.directory = some "/a/../b/n" := by
    decide +kernel
  obtain ⟨s, hload, hdirectory⟩ := exists_ok_of_toOption hdirectory
  refine ⟨s, hload, ?_, ?_, ?_⟩
  · rw [Tree.LeadsTo, hdirectory]
    decide +kernel
  all_goals decide +kernel

/-- **A name that is no text does not protect a file, and a directory that a path only goes through is
made.** -/
theorem not_leavesRest_by_prefix :
    (¬ ∀ (config : Json.Bytes) (owner arguments : String) (t : Tree) (s : Setup) (place : Place)
      (name : Name) (node : Node), t.WellNamed → Setup.load config arguments = .ok s →
      (result (del config owner arguments) t).2.LeadsTo s.directory place →
      bytesOf "last_reserved_ip." <+: name → t.node? (place ++ [name]) = some node →
      (result (del config owner arguments) t).2.node? (place ++ [name]) = some node) ∧
    ¬ ∀ (config : Json.Bytes) (owner arguments : String) (t : Tree) (s : Setup) (place p : Place),
      t.WellNamed → Setup.load config arguments = .ok s →
      (result (del config owner arguments) t).2.LeadsTo s.directory place →
      ¬ place <+: p → ¬ p <+: place →
      (result (del config owner arguments) t).2.node? p = t.node? p := by
  constructor
  · intro hkept
    obtain ⟨s, hload, hlead, hthere, hgone⟩ := del_shared
    have hmarker := hkept _ _ _ _ _ _ Disk.garbledMarker _ wellNamed_shared hload hlead
      (List.prefix_append _ _) hthere
    rw [List.cons_append, List.cons_append, List.nil_append, hgone] at hmarker
    cases hmarker
  · intro hsame
    obtain ⟨s, hload, hlead, habsent, hmade⟩ := del_detour
    have hnone := hsame _ _ _ _ _ _ ["a"] .empty hload hlead (by decide) (by decide)
    rw [hmade, habsent] at hnone
    cases hnone

end Command

end AddressPool
