import AddressPool.Command
import AddressPool.Proofs.Allocation.OnDisk
import AddressPool.Proofs.Setup
import Mathlib.Tactic

/-!
# What commands leave of the files

A command that fails to get addresses leaves no reservation that was not there before, unless it
failed since the marker of the first set could not be written.  Then the reservation that was to be
marked is still there, as no set gave an address that would be released
(`Command.add_error_keeps_pool_iff`).
-/

namespace AddressPool

open AddressPool.Files Attempt
open Lockfile (failed)

def Setup.directory (s : Setup) : Path :=
  join (s.dataDir?.getD Disk.defaultDataDir) s.name

/-- The directory at a path has a reservation that was not there before. -/
def Disk.NewReservationIn (directory : Path) (t u : Tree) : Prop :=
  ∃ (place : Place) (name : Name) (content : Content), u.LeadsTo directory place ∧
    u.node? (place ++ [name]) = some (.file content) ∧ ReservationName name ∧
    ∀ content₀, t.node? (place ++ [name]) ≠ some (.file content₀)

theorem Disk.NoNewReservation.not_newReservationIn {t u : Tree} (h : NoNewReservation t u)
    (directory : Path) : ¬ NewReservationIn directory t u := by
  rintro ⟨place, name, content, -, hfile, hname, hnew⟩
  obtain ⟨content₀, hold⟩ := h place name content hfile hname
  exact hnew content₀ hold

namespace Command

variable {config : Json.Bytes} {owner arguments : String} {t u : Tree} {e : Error} {f : Faults}

/-- A command failed as the marker of the first set of its network cannot be written. -/
def StoppedHalfway (config : Json.Bytes) (arguments : String) (e : Error) (u : Tree) : Prop :=
  ∃ (s : Setup) (fault : Fault) (content : Content), Setup.load config arguments = .ok s ∧
    u.write (join s.directory (Disk.markerName 0)) content = .error fault ∧
    e = .allocation 0 (failed "write" (join s.directory (Disk.markerName 0)) fault)

theorem not_stoppedHalfway_of_storage (context cause : String) :
    ¬ StoppedHalfway config arguments (.storage context cause) u := by
  rintro ⟨s, fault, content, -, -, h⟩
  cases h

theorem result_setup {σ : Type} (config : Json.Bytes) (arguments : String) (s : σ) :
    result (setup config arguments) s = (Setup.load config arguments, s) := by
  rw [setup, result_bind, result_ofExcept]
  cases Setup.load config arguments <;> rfl

theorem result_resolver (s : Setup) (t : Tree) :
    (∃ r, result (resolver s f) t = (.ok r, t)) ∨
      ∃ context cause, result (resolver s f) t = (.error (.storage context cause), t) := by
  rw [resolver]
  split
  · rw [resolverIn, result_ofVerdict_apply]
    split
    · exact Or.inr ⟨_, _, rfl⟩
    · exact Or.inl ⟨_, rfl⟩
  · exact Or.inl ⟨_, rfl⟩

theorem result_add_of_opened {s : Setup} {r : Resolver} {d : Disk} {t₁ : Tree}
    (hload : Setup.load config arguments = .ok s) (hresolver : result (resolver s f) t = (.ok r, t))
    (hopen : result (Disk.openAt s.name s.dataDir? f) t = (.ok d, t₁)) :
    result (add config owner arguments f) t =
      match result (allocateAll (d.store f) s.sets owner s.requested) t₁ with
      | (.ok leases, u) =>
        (.ok { version := s.version, leases, routes := s.routes, resolver := r }, u)
      | (.error e, u) => (.error e, u) := by
  have hsetup := result_setup config arguments t
  rw [hload] at hsetup
  rw [add, result_bind_of_ok hsetup, result_bind_of_ok hresolver, result_bind_of_ok hopen]
  rw [result_bind, result_lift, result_verdict]
  rcases result (allocateAll (d.store f) s.sets owner s.requested) t₁ with ⟨_ | _, _⟩ <;> rfl

/-- What a failed command leaves of a tree. -/
inductive Left (config : Json.Bytes) (arguments : String) (t : Tree) (e : Error) (u : Tree) : Prop
  | nothing : Disk.NoNewReservation t u → ¬ StoppedHalfway config arguments e u →
      Left config arguments t e u
  | reservation (s : Setup) : Setup.load config arguments = .ok s →
      StoppedHalfway config arguments e u → Disk.NewReservationIn s.directory t u →
      Left config arguments t e u

theorem left_of_allocateAll_error {s : Setup} {d : Disk} {t₁ : Tree} {place : Place}
    (hload : Setup.load config arguments = .ok s) (hopened : Disk.Opened t t₁)
    (hdirectory : d.directory = s.directory) (hlead : t₁.LeadsTo d.directory place)
    (h : result (allocateAll d.store s.sets owner s.requested) t₁ = (.error e, u)) :
    Left config arguments t e u := by
  rcases allocateAll_error_onDisk (Setup.canonicalized_of_load hload) hlead h with
    ⟨hfresh, hcause⟩ | ⟨a, fault, hfree, hwrite⟩
  · refine .nothing (hopened.fresh.trans hfresh) ?_
    rintro ⟨s', fault, content, hload', -, rfl⟩
    rw [hload] at hload'
    cases hload'
    apply hcause fault
    rw [Disk.halfway, Disk.path, hdirectory]
  · refine .reservation s hload ⟨s, fault, bytesOf a.text, hload, ?_, ?_⟩ ?_
    · rw [Disk.path, hdirectory] at hwrite
      exact hwrite
    · rw [Disk.halfway, Disk.path, hdirectory]
    · refine ⟨place, a.file, bytesOf (Text.trim owner), ?_, ?_, Disk.reservationName_file a, ?_⟩
      · rw [← hdirectory]
        exact hlead.mono (Tree.SameDirectories.put_file (by simp [hfree]) _).kept
      · rw [Tree.node?_put (by simp), if_pos rfl]
      · intro content₀
        rw [hopened.kept _ hfree]
        simp

theorem left_of_add_error (h : result (add config owner arguments) t = (.error e, u)) :
    Left config arguments t e u := by
  have hsetup := result_setup config arguments t
  cases hload : Setup.load config arguments with
  | error e' =>
    rw [hload] at hsetup
    rw [add, result_bind_of_error hsetup] at h
    cases h
    refine .nothing (.refl _) ?_
    rintro ⟨s, fault, content, hok, -⟩
    rw [hload] at hok
    cases hok
  | ok s =>
    rw [hload] at hsetup
    rcases result_resolver s t with ⟨r, hresolver⟩ | ⟨context, cause, hresolver⟩
    · obtain ⟨hopened, hdisk⟩ := Disk.opened s.name s.dataDir? t
      rcases hopen : result (Disk.openAt s.name s.dataDir?) t with ⟨e' | d, t₁⟩
      · rw [hopen] at hopened hdisk
        obtain ⟨context, cause, rfl⟩ := hdisk
        rw [add, result_bind_of_ok hsetup, result_bind_of_ok hresolver,
          result_bind_of_error hopen] at h
        cases h
        exact .nothing hopened.fresh (not_stoppedHalfway_of_storage _ _)
      · rw [hopen] at hopened hdisk
        obtain ⟨hdirectory, place, hlead⟩ := hdisk
        rw [result_add_of_opened hload hresolver hopen] at h
        rcases hall : result (allocateAll d.store s.sets owner s.requested) t₁ with ⟨_ | _, _⟩
        · rw [hall] at h
          cases h
          exact left_of_allocateAll_error hload hopened hdirectory hlead hall
        · rw [hall] at h
          cases h
    · rw [add, result_bind_of_ok hsetup, result_bind_of_error hresolver] at h
      cases h
      exact .nothing (.refl _) (not_stoppedHalfway_of_storage _ _)

/-- A configuration with one set, whose network is kept in a directory of the root. -/
def onePool : Json.Bytes :=
  bytesOf ("\x7b\"cniVersion\":\"0.3.1\",\"name\":\"n\",\"ipam\":\x7b\"type\":\"host-local\"," ++
    "\"dataDir\":\"/d\",\"subnet\":\"10.1.2.0/30\"\x7d\x7d")

/-- A tree with a directory where the marker of the first set should be. -/
def blockedMarker : Tree :=
  ((Tree.empty.put ["d"] .directory).put ["d", "n"] .directory).put
    ["d", "n", "last_reserved_ip.0"] .directory

theorem blockedMarker_fails : ∃ s e u, Setup.load onePool "" = .ok s ∧
    result (add onePool "dummy" "") blockedMarker = (.error e, u) ∧
    Disk.NewReservationIn s.directory blockedMarker u := by
  have hsetup : (Setup.load onePool "").toOption.map Setup.directory = some "/d/n" := by
    decide +kernel
  have hrun : (result (add onePool "dummy" "") blockedMarker).1.isOk = false ∧
      (result (add onePool "dummy" "") blockedMarker).2.lookup "/d/n" =
        .ok (["d", "n"], .directory) ∧
      (result (add onePool "dummy" "") blockedMarker).2.node? ["d", "n", "10.1.2.2"] =
        some (.file (bytesOf "dummy")) := by
    decide +kernel
  obtain ⟨s, hload, hdirectory⟩ := exists_ok_of_toOption hsetup
  generalize result (add onePool "dummy" "") blockedMarker = r at hrun ⊢
  obtain ⟨e | _, u⟩ := r
  · refine ⟨s, e, u, hload, rfl, ["d", "n"], "10.1.2.2", bytesOf "dummy", ?_, hrun.2.2, ?_, ?_⟩
    · rw [hdirectory]
      exact hrun.2.1
    · decide
    · intro content₀
      have habsent : blockedMarker.node? ["d", "n", "10.1.2.2"] = none := by decide +kernel
      rw [List.cons_append, List.cons_append, List.nil_append, habsent]
      simp
  · exact absurd hrun.1 Bool.noConfusion

/-- **A failed command leaves no reservation in the directory of the network exactly if it did not
stop halfway through one in its first set.** -/
theorem add_error_keeps_pool_iff (h : result (add config owner arguments) t = (.error e, u)) :
    (∀ s, Setup.load config arguments = .ok s → ¬ Disk.NewReservationIn s.directory t u) ↔
      ¬ StoppedHalfway config arguments e u := by
  cases left_of_add_error h with
  | nothing hfresh hnot =>
    exact iff_of_true (fun s _ => hfresh.not_newReservationIn s.directory) hnot
  | reservation s hload hstopped hnew =>
    exact iff_of_false (fun hnone => hnone s hload hnew) (fun hnot => hnot hstopped)

theorem add_error_keeps_pool_iff_blockedMarker : ∃ e u,
    result (add onePool "dummy" "") blockedMarker = (.error e, u) ∧
      ((∀ s, Setup.load onePool "" = .ok s →
        ¬ Disk.NewReservationIn s.directory blockedMarker u) ↔
          ¬ StoppedHalfway onePool "" e u) := by
  obtain ⟨_, e, u, -, h, -⟩ := blockedMarker_fails
  exact ⟨e, u, h, add_error_keeps_pool_iff h⟩

theorem not_add_error_keeps_pool :
    ¬ ∀ (config : Json.Bytes) (owner arguments : String) (t u : Tree) (e : Error),
      result (add config owner arguments) t = (.error e, u) →
      ∀ s, Setup.load config arguments = .ok s → ¬ Disk.NewReservationIn s.directory t u := by
  intro hkeeps
  obtain ⟨s, e, u, hload, h, hnew⟩ := blockedMarker_fails
  exact hkeeps _ _ _ _ _ _ h s hload hnew

end Command

end AddressPool
