import AddressPool.Proofs.Store.Mirror
import Mathlib.Tactic

/-!
# Calls on a store on disk

Calls on a store on disk come to what they come to on a store in memory, and the files of the
directory are the reservations and markers of the memory all along (`Disk.session_mirrors`).  It makes
no difference that the store is opened again between calls.
-/

namespace AddressPool

open AddressPool.Files Attempt

namespace Disk

/-- What is done with a store on disk: a call is made, or the store is closed and opened again. -/
inductive Move where
  | call (c : Call)
  | reopen

def calls : List Move → List Call
  | [] => []
  | .call c :: moves => c :: calls moves
  | .reopen :: moves => calls moves

/-- Makes moves one after the other, whatever comes of the calls. -/
def session (network : String) (dataDir? : Option String) (d : Disk) :
    List Move → Attempt Tree (List Event)
  | [] => return []
  | .call c :: moves => do
    let verdict ← ExceptT.lift (c.run d.store).verdict
    return ⟨c, verdict⟩ :: (← session network dataDir? d moves)
  | .reopen :: moves => do
    d.store.close
    session network dataDir? (← openAt network dataDir?) moves

variable {network : String} {dataDir? : Option String} {d : Disk} {place : Place} {ids : Set Nat}
  {m : Memory} {t t₀ : Tree} {moves : List Move}

theorem result_session_call (c : Call) (moves : List Move) (t : Tree) :
    result (session network dataDir? d (.call c :: moves)) t =
      match result (c.run d.store) t with
      | (verdict, t) =>
        match result (session network dataDir? d moves) t with
        | (.ok es, t) => (.ok (⟨c, verdict⟩ :: es), t)
        | (.error e, t) => (.error e, t) := by
  rw [session, result_bind, result_lift, result_verdict]
  rcases result (c.run d.store) t with ⟨verdict, t'⟩
  dsimp only
  rw [result_bind]
  rcases result (session network dataDir? d moves) t' with ⟨_ | _, _⟩ <;> rfl

theorem session_alike (h : Mirroring network dataDir? d place ids m t)
    (hids : ∀ c, .call c ∈ moves → c.setIds ⊆ ids) (hfree : ∀ a, .call (.free a) ∉ moves) :
    ∃ es m' t', Action.result (history Memory.store (calls moves)) m = (es, m') ∧
      result (session network dataDir? d moves) t = (.ok es, t') ∧
      Mirroring network dataDir? d place ids m' t' := by
  induction moves generalizing m t with
  | nil => exact ⟨[], m, t, rfl, rfl, h⟩
  | cons move moves ih =>
    have hids' : ∀ c, .call c ∈ moves → c.setIds ⊆ ids := fun c hc => hids c (.tail _ hc)
    have hfree' : ∀ a, .call (.free a) ∉ moves := fun a ha => hfree a (.tail _ ha)
    cases move with
    | call c =>
      have hc : ∀ a, c ≠ .free a := fun a ha => hfree a (ha ▸ List.mem_cons_self)
      have hrun : (result (c.run Memory.store) m).1 = (result (c.run d.store) t).1 ∧
          Mirroring network dataDir? d place ids (result (c.run Memory.store) m).2
            (result (c.run d.store) t).2 :=
        Call.alike_run (alike network dataDir? d place ids) c (hids c List.mem_cons_self) hc m t h
      rw [calls, result_history_cons, result_session_call]
      rcases hmemory : result (c.run Memory.store) m with ⟨v, m₁⟩
      rcases hdisk : result (c.run d.store) t with ⟨v', t₁⟩
      rw [hmemory, hdisk] at hrun
      obtain ⟨rfl, hstate⟩ := hrun
      obtain ⟨es, m', t', hhistory, hsession, hrest⟩ := ih hstate hids' hfree'
      refine ⟨⟨c, v⟩ :: es, m', t', ?_, ?_, hrest⟩
      · dsimp only
        rw [hhistory]
      · dsimp only
        rw [hsession]
    | reopen =>
      obtain ⟨es, m', t', hhistory, hsession, hrest⟩ := ih h hids' hfree'
      refine ⟨es, m', t', hhistory, ?_, hrest⟩
      have hclose : result d.store.close t = (.ok (), t) := rfl
      rw [session, result_bind_of_ok hclose, result_bind_of_ok (openAt_of_ready h.ready), hsession]

/-- Nothing can be wrong with the path of a file but that something is there or is not there. -/
def OnlyPresence (d : Disk) (t : Tree) (name : Name) : Prop :=
  ∀ fault, t.target (d.path name) = .error fault → fault = .present ∨ fault = .notFound

theorem mirroring_empty (hready : Ready network dataDir? d place t)
    (hempty : ∀ name, name ≠ Lockfile.name → t.node? (place ++ [name]) = none)
    (haddresses : ∀ a : Address, d.OnlyPresence t a.file)
    (hmarkers : ∀ i ∈ ids, d.OnlyPresence t (markerName i)) :
    Mirroring network dataDir? d place ids {} t where
  mirrors := by
    refine ⟨fun name hname => ?_, fun i => hempty _ (markerName_ne_lock i)⟩
    rw [hempty name fun hlock => not_reservationName_lock (hlock ▸ hname)]
    cases textOf? name <;> simp
  named _ _ howner := by simp at howner
  ready := hready
  reaches a := reaches_of_faults hready.lead a.isName_file a.file_ne_dots (haddresses a)
  reachesMarker i hi := reaches_of_faults hready.lead (isName_markerName i)
    (markerName_ne_dots i) (hmarkers i hi)

/-- **A store on disk and a store in memory are interchangeable.**  Whatever calls are made on a store
on disk that was opened on an empty directory, and whenever it is closed and opened again in between,
every call comes to what it comes to on an empty store in memory, and then the files of the directory
are the reservations and markers of the memory. -/
theorem session_mirrors (hopen : result (openAt network dataDir?) t = (.ok d, t₀))
    (hlead : t₀.LeadsTo d.directory place)
    (hempty : ∀ name, name ≠ Lockfile.name → t₀.node? (place ++ [name]) = none)
    (haddresses : ∀ a : Address, d.OnlyPresence t₀ a.file)
    (hmarkers : ∀ c, .call c ∈ moves → ∀ i ∈ c.setIds, d.OnlyPresence t₀ (markerName i))
    (hfree : ∀ a, .call (.free a) ∉ moves) :
    ∃ es m' t', Action.result (history Memory.store (calls moves)) {} = (es, m') ∧
      result (session network dataDir? d moves) t₀ = (.ok es, t') ∧ Mirrors place m' t' := by
  obtain ⟨place', hready, -, -⟩ := openedAt_of_openAt hopen
  obtain rfl : place' = place := hlead.unique hready.lead
  have hasked : ∀ i ∈ {i | ∃ c, .call c ∈ moves ∧ i ∈ c.setIds},
      d.OnlyPresence t₀ (markerName i) := by
    rintro i ⟨c, hc, hi⟩
    exact hmarkers c hc i hi
  have hmirroring := mirroring_empty hready hempty haddresses hasked
  obtain ⟨es, m', t', hhistory, hsession, hrest⟩ :=
    session_alike hmirroring (fun c hc i hi => ⟨c, hc, hi⟩) hfree
  exact ⟨es, m', t', hhistory, hsession, hrest.mirrors⟩

/-- A tree with a directory for a network, in which there is nothing but the file to lock. -/
def emptyPool : Tree :=
  ((Tree.empty.put ["d"] .directory).put ["d", "n"] .directory).put
    ["d", "n", Lockfile.name] (.file [])

/-- An owner gets two addresses, the store is opened again, another owner wants one of them and gets
it when the first has given them up. -/
def rivalMoves : List Move :=
  [.call (.acquireAll [tightSet 0, tightSet 1] " dummy " []), .reopen,
    .call (.acquire ⟨tightSet 0, 7⟩ "other" (some (.ofNat .v4 0x0A000002))),
    .call (.releaseAll [tightSet 0, tightSet 1] "dummy"), .reopen,
    .call (.acquire ⟨tightSet 0, 7⟩ "other" (some (.ofNat .v4 0x0A000002)))]

def tightLease (block : Nat) : Lease :=
  let base := 10 * 2 ^ 24 + block * 2 ^ 8
  ⟨"4", ⟨.ofNat .v4 (base + 2), 30, Nat.le_add_right 30 2⟩, .ofNat .v4 (base + 1)⟩

theorem ready_emptyPool :
    Ready "n" (some "/d") (located "n" (some "/d")) ["d", "n"] emptyPool := by
  have hlead : emptyPool.LeadsTo (located "n" (some "/d")).directory ["d", "n"] := by
    unfold Tree.LeadsTo
    decide +kernel
  have hreaches : (located "n" (some "/d")).Reaches ["d", "n"] emptyPool Lockfile.name :=
    reaches_of_fits hlead fileName_lock (by decide)
  exact ⟨rfl, hlead, hreaches, [], by decide +kernel⟩

theorem node?_emptyPool {name : Name} (hname : name ≠ Lockfile.name) :
    emptyPool.node? ([bytesOf "d", bytesOf "n"] ++ [name]) = none := by
  simp [emptyPool, Tree.node?_put, hname.symm]
  rfl

theorem onlyPresence_emptyPool {name : Name} (hname : FileName name) (hsize : name.length ≤ 168) :
    (located "n" (some "/d")).OnlyPresence emptyPool name := by
  intro fault hfault
  have hdirectory : (located "n" (some "/d")).directory.length = 4 := by decide
  have hreaches : (located "n" (some "/d")).Reaches ["d", "n"] emptyPool name := by
    apply reaches_of_size_le ready_emptyPool.lead hname
    rw [Tree.longestPath]
    omega
  rw [Reaches, hfault] at hreaches
  cases hreaches

theorem onlyPresence_markerName_emptyPool {i : Nat} (hi : i ∈ [0, 1, 7]) :
    (located "n" (some "/d")).OnlyPresence emptyPool (markerName i) := by
  have hnul : ∀ i ∈ [0, 1, 7], 0 ∉ markerName i := by decide
  have hsize : ∀ i ∈ [0, 1, 7], (markerName i).length ≤ 168 := by decide
  have hname : FileName (markerName i) :=
    ⟨isName_markerName i, markerName_ne_dots i, hnul i hi, (hsize i hi).trans (by decide)⟩
  exact onlyPresence_emptyPool hname (hsize i hi)

theorem mem_of_setIds_rivalMoves {c : Call} (hc : .call c ∈ rivalMoves) {i : Nat}
    (hi : i ∈ c.setIds) : i ∈ [0, 1, 7] := by
  simp only [rivalMoves, List.mem_cons, Move.call.injEq, List.not_mem_nil, reduceCtorEq, or_false,
    false_or] at hc
  rcases hc with rfl | rfl | rfl | rfl
  · have hlt : i < 2 := by simpa [Call.setIds] using hi
    interval_cases i <;> decide
  · obtain rfl : i = 7 := hi
    decide
  · cases hi
  · obtain rfl : i = 7 := hi
    decide

theorem session_mirrors_emptyPool : ∃ es m' t',
    Action.result (history Memory.store (calls rivalMoves)) {} = (es, m') ∧
      result (session "n" (some "/d") (located "n" (some "/d")) rivalMoves) emptyPool = (.ok es, t') ∧
      Mirrors ["d", "n"] m' t' ∧
      es.map (·.verdict.toOption) =
        [some (.leases [tightLease 0, tightLease 1]), none, some .done,
          some (.lease (tightLease 0))] ∧
      t'.children ["d", "n"] =
        [Address.file (.ofNat .v4 0x0A000002), markerName 0, markerName 1, markerName 7,
          Lockfile.name] ∧
      t'.node? ["d", "n", Address.file (.ofNat .v4 0x0A000002)] = some (.file (bytesOf "other")) ∧
      t'.node? ["d", "n", markerName 1] = some (.file (bytesOf "10.0.1.2")) := by
  have hmirrors : ∃ es m' t',
      Action.result (history Memory.store (calls rivalMoves)) {} = (es, m') ∧
      result (session "n" (some "/d") (located "n" (some "/d")) rivalMoves) emptyPool =
        (.ok es, t') ∧ Mirrors ["d", "n"] m' t' :=
    session_mirrors (openAt_of_ready ready_emptyPool) ready_emptyPool.lead (fun _ => node?_emptyPool)
      (fun a => onlyPresence_emptyPool (fileName_file a) (length_file_le a))
      (fun _ hc _ hi => onlyPresence_markerName_emptyPool (mem_of_setIds_rivalMoves hc hi))
      (by simp [rivalMoves])
  obtain ⟨es, m', t', hhistory, hsession, hmirror⟩ := hmirrors
  have hes := congrArg Prod.fst hhistory
  have ht' := congrArg Prod.snd hsession
  refine ⟨es, m', t', hhistory, hsession, hmirror, ?_, ?_, ?_, ?_⟩
  · rw [← show _ = es from hes]
    decide +kernel
  all_goals
    rw [← show _ = t' from ht']
    decide +kernel

end Disk

end AddressPool
