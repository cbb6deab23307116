import AddressPool.Proofs.Store.Alike
import AddressPool.Proofs.Store.Disk.Files
import AddressPool.Proofs.Store.Memory
import Mathlib.Tactic

/-!
# A store on disk is a store in memory

A directory mirrors a memory if its files are the reservations and the markers of the memory
(`Disk.Mirrors`).  Each operation of a store on disk comes to what the operation in memory comes to
and keeps the directory a mirror (`Disk.alike`), as long as the paths of the files that it may touch
lead somewhere.
-/

namespace AddressPool

open AddressPool.Files Attempt

namespace Disk

variable {d : Disk} {place : Place} {m : Memory} {t u : Tree} {owner : String} {name : Name}
  {a : Address}

/-- The files of a directory are the reservations of a memory, each named by its address and holding
its owner, and the markers of the memory. -/
structure Mirrors (place : Place) (m : Memory) (t : Tree) : Prop where
  reservations : ∀ name, ReservationName name → t.node? (place ++ [name]) =
    ((textOf? name).bind (m.owners[·]?)).map fun owner => .file (bytesOf owner)
  markers : ∀ i, t.node? (place ++ [markerName i]) =
    m.last[i]?.map fun a => .file (bytesOf a.text)

/-- Reservations are named by addresses, and their owners have no blanks around them. -/
def Named (m : Memory) : Prop :=
  ∀ name owner : String, m.owners[name]? = some owner →
    (∃ a : Address, a.text = name) ∧ Text.trim owner = owner

theorem Named.grant (h : Named m) (owner : String) (a : Address) (setId : Nat) :
    Named (m.grant owner a setId) := by
  intro name o ho
  rw [Memory.owners_grant] at ho
  split_ifs at ho with hname
  · cases ho
    exact ⟨⟨a, hname⟩, Text.trim_trim owner⟩
  · exact h name o ho

theorem Named.releaseOwner (h : Named m) (owner : String) : Named (m.releaseOwner owner) := by
  intro name o ho
  rw [Memory.owners_releaseOwner, Option.filter_eq_some_iff] at ho
  exact h name o ho.1

namespace Mirrors

theorem node?_file (h : Mirrors place m t) (a : Address) :
    t.node? (place ++ [a.file]) = (m.owner? a).map fun owner => .file (bytesOf owner) := by
  rw [h.reservations a.file (reservationName_file a), Address.file, textOf?_bytesOf]
  rfl

theorem marker_ne_directory (h : Mirrors place m t) (i : Nat) :
    t.node? (place ++ [markerName i]) ≠ some .directory := by
  rw [h.markers]
  cases m.last[i]? <;> simp

theorem reservedIn (h : Mirrors place m t) (owner : String) (a : Address) (setId : Nat) :
    Mirrors place (m.grant owner a setId) (reservedIn place owner a setId t) := by
  refine ⟨fun name hname => ?_, fun i => ?_⟩
  · have hmarker : markerName setId ≠ name := by
      rintro rfl
      exact not_reservationName_markerName setId hname
    rw [node?_reservedIn, if_neg (by simpa using hmarker)]
    by_cases ha : a.file = name
    · rw [if_pos (by rw [ha]), ← ha, Address.file, textOf?_bytesOf, Option.bind_some,
        Memory.owners_grant, if_pos rfl]
      rfl
    · have hkey : ∀ key, textOf? name = some key → a.text ≠ key := by
        rintro key hkey rfl
        exact ha (textOf?_eq_some_iff.mp hkey).symm
      rw [if_neg (by simpa using ha), h.reservations name hname]
      cases hname : textOf? name with
      | none => rfl
      | some key =>
        rw [Option.bind_some, Option.bind_some, Memory.owners_grant, if_neg (hkey key hname)]
  · have ha : a.file ≠ markerName i := file_ne (not_reservationName_markerName i)
    rw [node?_reservedIn, Memory.last_grant]
    by_cases hi : setId = i
    · simp [hi]
    · simp [hi, ha, markerName_injective.eq_iff, h.markers i]

theorem exists_key (h : Mirrors place m t) (hname : ReservationName name)
    (hnode : t.node? (place ++ [name]) = some node) :
    ∃ key o, name = bytesOf key ∧ m.owners[key]? = some o ∧ node = .file (bytesOf o) := by
  rw [h.reservations name hname] at hnode
  obtain ⟨o, ho, hcontent⟩ := Option.map_eq_some_iff.mp hnode
  obtain ⟨key, hkey, ho⟩ := Option.bind_eq_some_iff.mp ho
  exact ⟨key, o, textOf?_eq_some_iff.mp hkey, ho, hcontent.symm⟩

theorem hasReservation_iff (h : Mirrors place m t) (hnamed : Named m) :
    HasReservation place owner t a.file ↔ m.owner? a = some (Text.trim owner) := by
  have hnode := h.node?_file a
  constructor
  · rintro ⟨node, hfile, hreservation⟩
    obtain ⟨-, content, text, rfl, htext, htrim⟩ := reservationOf_iff.mp hreservation
    rw [hnode] at hfile
    obtain ⟨o, ho, hcontent⟩ := Option.map_eq_some_iff.mp hfile
    cases hcontent
    obtain rfl : o = text := Option.some.inj ((textOf?_bytesOf o).symm.trans htext)
    rw [← htrim, (hnamed a.text o ho).2, ho]
  · intro howner
    rw [howner] at hnode
    refine ⟨_, hnode, reservationName_file a, Text.trim owner, rfl, ?_⟩
    exact Text.trim_eq_trim_iff.mp (Text.trim_trim owner)

theorem properNames (h : Mirrors place m t) (hnamed : Named m) :
    ProperNames (t.children place) := by
  intro name hmem hname
  obtain ⟨node, hnode⟩ := Tree.mem_children.mp hmem
  obtain ⟨key, o, rfl, ho, -⟩ := h.exists_key hname hnode
  obtain ⟨⟨a, rfl⟩, -⟩ := hnamed key o ho
  exact ⟨a.isName_file, a.file_ne_dots⟩

theorem released (h : Mirrors place m t) (hnamed : Named m)
    (hreaches : ∀ a : Address, d.Reaches place t a.file)
    (hreleased : d.Released place owner (t.children place) t u) :
    Mirrors place (m.releaseOwner owner) u := by
  refine ⟨fun name hname => ?_, fun i => ?_⟩
  · cases hnode : t.node? (place ++ [name]) with
    | none =>
      have hnone := h.reservations name hname
      rw [hnode] at hnone
      have hkept : u.node? (place ++ [name]) = none := by
        rw [hreleased.kept _ ?_, hnode]
        intro name' hmem _ heq
        obtain ⟨node, hnode'⟩ := Tree.mem_children.mp hmem
        rw [heq, hnode] at hnode'
        cases hnode'
      rw [hkept]
      cases hkey : textOf? name with
      | none => rfl
      | some key =>
        rw [hkey, Option.bind_some, eq_comm, Option.map_eq_none_iff] at hnone
        rw [Option.bind_some, Memory.owners_releaseOwner, hnone]
        rfl
    | some node =>
      obtain ⟨key, o, rfl, ho, rfl⟩ := h.exists_key hname hnode
      obtain ⟨⟨a, rfl⟩, -⟩ := hnamed key o ho
      have howner : m.owner? a = some o := ho
      have hholds : d.Holds place t owner a.file ↔ o = Text.trim owner := by
        have hiff : HasReservation place owner t a.file ↔ m.owner? a = some (Text.trim owner) :=
          h.hasReservation_iff hnamed
        rw [howner, Option.some.injEq] at hiff
        exact ⟨fun hholds => hiff.mp hholds.reservation, fun ho => ⟨hreaches a, hiff.mpr ho⟩⟩
      rw [textOf?_bytesOf, Option.bind_some, Memory.owners_releaseOwner, ho]
      change t.node? (place ++ [a.file]) = _ at hnode
      change u.node? (place ++ [a.file]) = _
      by_cases hsame : o = Text.trim owner
      · rw [hreleased.gone a.file (Tree.mem_children.mpr ⟨_, hnode⟩) (hholds.mpr hsame)]
        simp [hsame]
      · rw [hreleased.kept _ ?_, hnode]
        · simp [hsame]
        · intro name' _ hholds' heq
          obtain rfl : name' = a.file := by simpa using heq
          exact hsame (hholds.mp hholds')
  · rw [hreleased.kept _ ?_, h.markers]
    · rfl
    · intro name' _ hholds heq
      obtain rfl : name' = markerName i := by simpa using heq
      exact not_reservationName_markerName i hholds.reservation.reservationName

end Mirrors

/-! ### The operations -/

variable {network : String} {dataDir? : Option String} {ids : Set Nat}

/-- A store on disk is open in a tree in which its directory mirrors a memory, and the paths of the
files of addresses and of markers of sets with some numbers lead to where they should. -/
structure Mirroring (network : String) (dataDir? : Option String) (d : Disk) (place : Place)
    (ids : Set Nat) (m : Memory) (t : Tree) : Prop where
  mirrors : Mirrors place m t
  named : Named m
  ready : Ready network dataDir? d place t
  reaches : ∀ a : Address, d.Reaches place t a.file
  reachesMarker : ∀ i ∈ ids, d.Reaches place t (markerName i)

theorem Mirroring.of_reservedIn (h : Mirroring network dataDir? d place ids m t) (owner : String)
    (hfree : t.node? (place ++ [a.file]) = none) (setId : Nat) :
    Mirroring network dataDir? d place ids (m.grant owner a setId)
      (reservedIn place owner a setId t) := by
  have hsame := sameDirectories_reservedIn hfree (h.mirrors.marker_ne_directory setId) owner
  refine ⟨h.mirrors.reservedIn owner a setId, h.named.grant owner a setId, h.ready.mono hsame ?_,
    fun b => (h.reaches b).mono hsame.kept, fun i hi => (h.reachesMarker i hi).mono hsame.kept⟩
  have ha : a.file ≠ Lockfile.name := file_ne not_reservationName_lock
  rw [node?_reservedIn, if_neg (by simpa using markerName_ne_lock setId), if_neg (by simpa using ha)]

theorem Mirroring.of_released (h : Mirroring network dataDir? d place ids m t)
    (hreleased : d.Released place owner (t.children place) t u) :
    Mirroring network dataDir? d place ids (m.releaseOwner owner) u := by
  have hsame := hreleased.directories
  refine ⟨h.mirrors.released h.named h.reaches hreleased, h.named.releaseOwner owner,
    h.ready.mono hsame (hreleased.kept _ ?_), fun a => (h.reaches a).mono hsame.kept,
    fun i hi => (h.reachesMarker i hi).mono hsame.kept⟩
  intro name _ hholds heq
  obtain rfl : name = Lockfile.name := by simpa using heq
  exact not_reservationName_lock hholds.reservation.reservationName

/-- **A store on disk and a store in memory are alike.** -/
theorem alike (network : String) (dataDir? : Option String) (d : Disk) (place : Place)
    (ids : Set Nat) :
    Memory.store.Alike (Mirroring network dataDir? d place ids) .univ ids d.store where
  lock := fun _ _ h => ⟨rfl, ⟨h.mirrors.1, h.mirrors.2⟩, h.named, h.ready, h.reaches, h.reachesMarker⟩
  unlock := fun _ _ h =>
    ⟨rfl, ⟨h.mirrors.1, h.mirrors.2⟩, h.named, h.ready, h.reaches, h.reachesMarker⟩
  reserve owner _ a setId hid m t h := by
    change (result (Memory.store.reserve owner a setId) m).1 =
      (result (d.store.reserve owner a setId) t).1 ∧ Mirroring network dataDir? d place ids
        (result (Memory.store.reserve owner a setId) m).2
        (result (d.store.reserve owner a setId) t).2
    have hnode := h.mirrors.node?_file a
    rw [Memory.result_reserve]
    cases howner : m.owner? a with
    | none =>
      have hfree : t.node? (place ++ [a.file]) = none := by
        rw [hnode, howner]
        rfl
      have hreserve : result (d.store.reserve owner a setId) t =
          (.ok true, Disk.reservedIn place owner a setId t) := (reserve_eq_true_iff h.ready.lead).mpr
        ⟨h.reaches a, h.reachesMarker setId hid, hfree, h.mirrors.marker_ne_directory setId, rfl⟩
      rw [hreserve, Memory.reserve_of_free setId howner]
      exact ⟨rfl, h.of_reservedIn owner hfree setId⟩
    | some o =>
      have hpresent : t.node? (place ++ [a.file]) ≠ none := by
        rw [hnode, howner]
        simp
      rw [reserve_of_present (h.reaches a) hpresent, Memory.reserve_of_taken setId (by simp [howner])]
      exact ⟨rfl, h⟩
  lastReserved setId hid m t h := by
    have hmarker := h.mirrors.markers setId
    rw [Memory.result_lastReserved, result_lastReserved, Memory.lastReserved]
    refine ⟨?_, h⟩
    cases hm : m.last[setId]? with
    | none =>
      rw [hm] at hmarker
      rw [lastReserved_of_none (h.reachesMarker setId hid) hmarker]
    | some a =>
      rw [hm] at hmarker
      rw [lastReserved_of_file (h.reachesMarker setId hid) hmarker]
      simp [Except.map]
  releaseOwner owner _ m t h := by
    obtain ⟨u, hrelease, hreleased⟩ :=
      released_releaseOwner h.ready.lead (h.mirrors.properNames h.named) owner
    change (result (Memory.store.releaseOwner owner) m).1 =
      (result (d.releaseOwner owner) t).1 ∧ Mirroring network dataDir? d place ids
        (result (Memory.store.releaseOwner owner) m).2 (result (d.releaseOwner owner) t).2
    rw [hrelease, Memory.result_releaseOwner]
    exact ⟨rfl, h.of_released hreleased⟩

end Disk

end AddressPool
