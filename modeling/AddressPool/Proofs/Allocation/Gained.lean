import AddressPool.Proofs.Allocation.OnDisk
import AddressPool.Proofs.Store.Disk.Files
import Mathlib.Tactic

/-!
# What a call for addresses adds to a directory

An attempt to get an address from a set on disk that succeeds is one reservation that is won
(`Pool.reserve_of_acquire`).  So a call that gets an address from each set adds a file for each
address, which was not there before, and the markers of the sets, and nothing else
(`allocateAll_gained`).
-/

namespace AddressPool

open AddressPool.Files Attempt

def Lease.file (l : Lease) : Name :=
  l.address.address.file

theorem Lease.file_ne_markerName (l : Lease) (i : Nat) : l.file ≠ Disk.markerName i :=
  Disk.file_ne (Disk.not_reservationName_markerName i)

/-! ### One set -/

namespace Pool

variable {d : Disk} {t u : Tree} {place : Place} {pool : Pool} {owner : String}

theorem reserve_of_reserveAmong (hlead : t.LeadsTo d.directory place) {ps : List (Position pool.set)}
    {p : Position pool.set}
    (h : result (pool.reserveAmong d.store owner ps) t = (.ok (some p), u)) :
    result (d.store.reserve owner p.address pool.id) t = (.ok true, u) := by
  induction ps with
  | nil => cases h
  | cons q ps ih =>
    have hreserved := Disk.reserved hlead owner q.address pool.id
    rw [reserveAmong, result_bind] at h
    rcases hresult : result (d.store.reserve owner q.address pool.id) t with ⟨r, t₁⟩
    rw [hresult] at hreserved h
    cases hreserved with
    | taken => exact ih h
    | refused fault => cases h
    | stopped fault _ _ _ => cases h
    | won content _ _ _ =>
      cases h
      exact hresult

theorem reserve_of_reserveFor (hs : pool.set.Sound) (hlead : t.LeadsTo d.directory place)
    {requested : Option Address} {p : Position pool.set}
    (h : result (pool.reserveFor d.store owner requested) t = (.ok p, u)) :
    result (d.store.reserve owner p.address pool.id) t = (.ok true, u) := by
  cases requested with
  | none =>
    rw [reserveFor, result_reserveNext hs, Disk.result_lastReserved] at h
    dsimp only at h
    rcases hamong : result (pool.reserveAmong d.store owner
      (pool.set.candidatesAfter (d.lastReserved pool.id t).toOption)) t with ⟨_ | _ | q, t₁⟩
    · rw [hamong] at h
      cases h
    · rw [hamong] at h
      cases h
    · rw [hamong] at h
      cases h
      exact reserve_of_reserveAmong hlead hamong
  | some a =>
    rw [reserveFor, result_reserveRequested] at h
    cases hlookup : pool.set.lookup a.canonical with
    | error e =>
      rw [hlookup] at h
      cases h
    | ok i =>
      rw [hlookup] at h
      dsimp only at h
      split_ifs at h
      · cases h
      · rcases hreserve : result (d.store.reserve owner a.canonical pool.id) t with
          ⟨_ | _ | _, t₁⟩
        · rw [hreserve] at h
          cases h
        · rw [hreserve] at h
          cases h
        · rw [hreserve] at h
          cases h
          exact hreserve

/-- **A set that gives an address has won its reservation.** -/
theorem reserve_of_acquire (hs : pool.set.Sound) (hlead : t.LeadsTo d.directory place)
    {requested : Option Address} {l : Lease}
    (h : result (pool.acquire d.store owner requested) t = (.ok l, u)) :
    result (d.store.reserve owner l.address.address pool.id) t = (.ok true, u) := by
  rw [result_acquire_eq, Disk.result_lock] at h
  dsimp only at h
  rcases hfor : result (pool.reserveFor d.store owner requested) t with ⟨e | p, t₁⟩
  · rw [hfor] at h
    cases h
  · obtain ⟨l', hl, hleased⟩ := lease_of_spanned hs (spanned_of_reserveFor hs hfor)
    rw [hfor] at h
    dsimp only at h
    rw [hl] at h
    cases h
    rw [hleased.address]
    exact reserve_of_reserveFor hs hlead hfor

theorem acquire_of_reserveFor (hs : pool.set.Sound) {requested : Option Address}
    {p : Position pool.set}
    (h : result (pool.reserveFor d.store owner requested) t = (.ok p, u)) :
    ∃ l, result (pool.acquire d.store owner requested) t = (.ok l, u) := by
  obtain ⟨l, hl, -⟩ := lease_of_spanned hs (spanned_of_reserveFor hs h)
  refine ⟨l, ?_⟩
  rw [result_acquire_eq, Disk.result_lock]
  dsimp only
  rw [h]
  dsimp only
  rw [hl, Disk.result_unlock]

/-- **A set without a marker gives the first of its candidates, if that one can be reserved.** -/
theorem acquire_of_reserve (hs : pool.set.Sound) {e : Error}
    (hlast : d.lastReserved pool.id t = .error e) {p : Position pool.set}
    {ps : List (Position pool.set)} (hcandidates : pool.set.candidatesAfter none = p :: ps)
    (hreserve : result (d.store.reserve owner p.address pool.id) t = (.ok true, u)) :
    ∃ l, result (pool.acquire d.store owner none) t = (.ok l, u) := by
  have hamong : result (pool.reserveAmong d.store owner (p :: ps)) t = (.ok (some p), u) := by
    rw [reserveAmong, result_bind_of_ok hreserve, if_pos rfl, result_pure]
  apply acquire_of_reserveFor hs (p := p)
  rw [reserveFor, result_reserveNext hs, Disk.result_lastReserved, hlast]
  dsimp only [Except.toOption]
  rw [hcandidates, hamong]

end Pool

/-! ### All sets -/

namespace Disk

variable {d : Disk} {place : Place} {owner : String} {pools : List Pool} {ls : List Lease}
  {t t₁ u : Tree} {pool : Pool} {l : Lease}

/-- A directory has gained the files of some leases, one of each set, which were not there before,
and the markers of the sets; nothing else has changed. -/
structure Gained (d : Disk) (place : Place) (owner : String) (pools : List Pool) (ls : List Lease)
    (t u : Tree) : Prop where
  length : ls.length = pools.length
  directories : Tree.SameDirectories t u
  fresh : ∀ l ∈ ls, t.node? (place ++ [l.file]) = none ∧ d.Reaches place t l.file
  files : ∀ l ∈ ls, u.node? (place ++ [l.file]) = some (.file (bytesOf (Text.trim owner)))
  distinct : (ls.map Lease.file).Nodup
  markers : ∀ (i : Nat) (pool : Pool) (l : Lease), pools[i]? = some pool → ls[i]? = some l →
    d.Reaches place t (markerName pool.id) ∧
      u.node? (place ++ [markerName pool.id]) = some (.file (bytesOf l.address.address.text))
  kept : ∀ p, (∀ l ∈ ls, place ++ [l.file] ≠ p) →
    (∀ pool ∈ pools, place ++ [markerName pool.id] ≠ p) → u.node? p = t.node? p

theorem Gained.nil (t : Tree) : Gained d place owner [] [] t t :=
  ⟨rfl, .refl t, by simp, by simp, by simp, by simp, fun _ _ _ => rfl⟩

theorem Gained.cons (hlead : t.LeadsTo d.directory place)
    (hreserve : result (d.store.reserve owner l.address.address pool.id) t = (.ok true, t₁))
    (hid : pool.id ∉ pools.map Pool.id) (h : Gained d place owner pools ls t₁ u) :
    Gained d place owner (pool :: pools) (l :: ls) t u := by
  obtain ⟨hreaches, hmarker, hfree, hnode, ht₁⟩ := (reserve_eq_true_iff hlead).mp hreserve
  have hsame : Tree.SameDirectories t t₁ := ht₁ ▸ sameDirectories_reservedIn hfree hnode owner
  have hreserved : ∀ p, t₁.node? p =
      if place ++ [markerName pool.id] = p then some (.file (bytesOf l.address.address.text))
      else if place ++ [l.file] = p then some (.file (bytesOf (Text.trim owner)))
      else t.node? p := by
    rw [ht₁]
    exact node?_reservedIn place owner l.address.address pool.id t
  have hfile : t₁.node? (place ++ [l.file]) = some (.file (bytesOf (Text.trim owner))) := by
    rw [hreserved, if_neg (by simpa using (l.file_ne_markerName pool.id).symm), if_pos rfl]
  -- the other sets found the file of the first one and made others
  have hne : ∀ l' ∈ ls, l'.file ≠ l.file := by
    intro l' hl' heq
    have hnone := (h.fresh l' hl').1
    rw [heq, hfile] at hnone
    cases hnone
  have hids : ∀ q ∈ pools, markerName q.id ≠ markerName pool.id := by
    intro q hq heq
    rw [← markerName_injective heq] at hid
    exact hid (List.mem_map_of_mem hq)
  refine {
    length := by simp [h.length]
    directories := hsame.trans h.directories
    fresh := ?fresh
    files := ?files
    distinct := ?distinct
    markers := ?markers
    kept := ?kept }
  case fresh =>
    intro l' hl'
    rcases List.mem_cons.mp hl' with rfl | hl'
    · exact ⟨hfree, hreaches⟩
    · obtain ⟨hnone, hreaches'⟩ := h.fresh l' hl'
      rw [hreserved, if_neg (by simpa using (l'.file_ne_markerName pool.id).symm),
        if_neg (by simpa using (hne l' hl').symm)] at hnone
      exact ⟨hnone, hreaches'.mono hsame.old⟩
  case files =>
    intro l' hl'
    rcases List.mem_cons.mp hl' with rfl | hl'
    · rw [h.kept _ (by simpa using hne) ?_, hfile]
      intro q _
      simpa using (l'.file_ne_markerName q.id).symm
    · exact h.files l' hl'
  case distinct =>
    rw [List.map_cons, List.nodup_cons]
    exact ⟨by simpa using hne, h.distinct⟩
  case markers =>
    intro i q l' hq hl'
    cases i with
    | zero =>
      cases hq
      cases hl'
      refine ⟨hmarker, ?_⟩
      rw [h.kept _ ?_ (by simpa using hids), hreserved, if_pos rfl]
      intro l' _
      simpa using l'.file_ne_markerName pool.id
    | succ i =>
      obtain ⟨hreaches', hnode'⟩ := h.markers i q l' hq hl'
      exact ⟨hreaches'.mono hsame.old, hnode'⟩
  case kept =>
    intro p hfiles hmarkers
    obtain ⟨hfile', hfiles⟩ := List.forall_mem_cons.mp hfiles
    obtain ⟨hmarker', hmarkers⟩ := List.forall_mem_cons.mp hmarkers
    rw [h.kept p hfiles hmarkers, hreserved, if_neg hmarker', if_neg hfile']

theorem Gained.wellNamed (h : Gained d place owner pools ls t u) (hnames : t.WellNamed) :
    u.WellNamed := by
  intro directory name node hnode
  by_cases hfile : ∃ l ∈ ls, place ++ [l.file] = directory ++ [name]
  · obtain ⟨l, hl, heq⟩ := hfile
    obtain ⟨-, hlast⟩ := List.append_inj' heq rfl
    cases hlast
    exact Tree.fileName_of_target (h.fresh l hl).2
  by_cases hmarker : ∃ pool ∈ pools, place ++ [markerName pool.id] = directory ++ [name]
  · obtain ⟨pool, hpool, heq⟩ := hmarker
    obtain ⟨-, hlast⟩ := List.append_inj' heq rfl
    cases hlast
    obtain ⟨i, hi, rfl⟩ := List.getElem_of_mem hpool
    have hi' : i < ls.length := h.length ▸ hi
    exact Tree.fileName_of_target (h.markers i pools[i] ls[i] (List.getElem?_eq_getElem hi)
      (List.getElem?_eq_getElem hi')).1
  · rw [h.kept _ (by simpa using hfile) (by simpa using hmarker)] at hnode
    exact hnames directory name node hnode

theorem Gained.ready {network : String} {dataDir? : Option String}
    (h : Gained d place owner pools ls t u) (hready : Ready network dataDir? d place t) :
    Ready network dataDir? d place u := by
  apply hready.mono h.directories
  apply h.kept
  · intro l _
    have hne : l.file ≠ Lockfile.name := file_ne not_reservationName_lock
    simpa using hne
  · intro pool _
    simpa using markerName_ne_lock pool.id

end Disk

open Allocation

variable {d : Disk} {place : Place} {owner : String} {t u : Tree}

theorem Allocation.gained_acquireEach {phase : Phase} {given pools : List Pool}
    {waiting : List Address} {ls : List Lease} (hlead : t.LeadsTo d.directory place)
    (hsound : ∀ pool ∈ pools, pool.set.Sound) (hids : (pools.map Pool.id).Nodup)
    (h : Action.result (acquireEach d.store owner phase given waiting pools) t = (.ok ls, u)) :
    d.Gained place owner pools ls t u := by
  induction pools generalizing phase given waiting t ls with
  | nil =>
    by_cases hwaiting : waiting = []
    · rw [hwaiting, result_acquireEach_nil] at h
      cases h
      exact .nil _
    · rw [result_acquireEach_of_waiting _ _ _ _ _ _ hwaiting] at h
      cases h
  | cons pool pools ih =>
    obtain ⟨hs, hsound⟩ := List.forall_mem_cons.mp hsound
    obtain ⟨hid, hids⟩ := List.nodup_cons.mp hids
    rw [result_acquireEach_cons] at h
    rcases hacquire : result (pool.acquire d.store owner (waiting.find? pool.set.contains)) t with
      ⟨_ | l, t₁⟩
    · rw [hacquire] at h
      cases h
    · rw [hacquire] at h
      dsimp only at h
      rcases hrest : Action.result (acquireEach d.store owner (.allocating pool.id) (given ++ [pool])
        (waiting.eraseP pool.set.contains) pools) t₁ with ⟨_ | ks, t₂⟩
      · rw [hrest] at h
        cases h
      · rw [hrest] at h
        cases h
        have hreserve := Pool.reserve_of_acquire hs hlead hacquire
        have hlead₁ : t₁.LeadsTo d.directory place := by
          obtain ⟨-, -, hfree, hnode, rfl⟩ := (Disk.reserve_eq_true_iff hlead).mp hreserve
          exact hlead.mono (Disk.sameDirectories_reservedIn hfree hnode owner).kept
        exact .cons hlead hreserve hid (ih hlead₁ hsound hids hrest)

/-- **A call that gets an address from each set adds their files and the markers of the sets.** -/
theorem allocateAll_gained {sets : List RangeSet} (hsets : ∀ s ∈ sets, s.Canonicalized)
    (hlead : t.LeadsTo d.directory place) {requested : List Address} {ls : List Lease}
    (h : result (allocateAll d.store sets owner requested) t = (.ok ls, u)) :
    d.Gained place owner (pools sets) ls t u := by
  apply gained_acquireEach hlead (fun _ hpool => (hsets _ (set_mem_of_mem_pools hpool)).sound) _ h
  rw [map_id_pools]
  exact List.nodup_range

end AddressPool
