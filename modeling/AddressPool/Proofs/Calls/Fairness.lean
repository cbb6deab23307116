import AddressPool.Proofs.Store.Alike
import AddressPool.Proofs.Walk.Rotation
import Mathlib.Tactic

/-!
# How long an address stays unused

A set that gives addresses of its choice goes round: between two times that it gives the same
address, every other candidate was reserved at some moment (`others_reserved_between`).  What else
goes on does not matter, as long as no other call may reserve under the number of the set.

Only these requests move the marker of the set (`Call.last_run`), and each moves it to the candidate
that it takes.  So the candidates between the address that was given and the marker are those that
were passed over since, and what is passed over is reserved (`Underway`).
-/

namespace AddressPool

open Attempt

/-! ### Sets whose addresses stand for no others -/

/-- No subnet of the set contains an address that stands for another. -/
def RangeSet.Unmapped (s : RangeSet) : Prop :=
  ∀ r ∈ s.members, ∀ a, r.subnet.contains a = true → a.mapped? = none

namespace RangeSet.Sound

variable {s : RangeSet} {p : Position s}

theorem unmapped_of_isV4 (hs : s.Sound) (hv4 : s.isV4 = true) : s.Unmapped := by
  intro r hr a ha
  obtain ⟨first, hfirst, hfamily⟩ := Option.map_eq_some_iff.mp (beq_iff_eq.mp hv4)
  have hsame := hs.one_family r hr first (List.mem_of_head? hfirst)
  rw [hfamily, (hs.member_sound r hr).family_start, ← (Network.contains_iff.mp ha).1] at hsame
  rw [Address.mapped?, hsame]

theorem mapped?_eq_none (hs : s.Sound) (hplain : s.Unmapped) (hp : p.Spanned) :
    p.address.mapped? = none :=
  hplain p.range (s.member_mem p.member) _ ((hs.member p.member).subnet_contains hp)

end RangeSet.Sound

/-! ### What becomes of the marker -/

theorem Memory.keeps_last (id : Nat) (x : Option Address) :
    store.Keeps (·.last[id]? = x) .univ {i | i ≠ id} where
  lock _ hx := hx
  unlock _ hx := hx
  reserve owner _ a setId hne m hx := by
    rw [result_reserve]
    cases hfree : m.owner? a with
    | none =>
      rw [reserve_of_free setId hfree]
      exact (m.last_grant owner a setId id).trans ((if_neg hne).trans hx)
    | some o =>
      rw [reserve_of_taken setId (by simp [hfree])]
      exact hx
  lastReserved _ _ _ hx := hx
  releaseOwner _ _ _ hx := hx

theorem Call.last_run {c : Call} {id : Nat} (hid : id ∉ c.setIds) (m : Memory) :
    (result (c.run Memory.store) m).2.last[id]? = m.last[id]? := by
  by_cases hfree : ∃ a, c = .free a
  · obtain ⟨a, rfl⟩ := hfree
    rfl
  · rw [not_exists] at hfree
    have hids : c.setIds ⊆ {i | i ≠ id} := fun i hi heq => hid (heq ▸ hi)
    exact (c.alike_run (Memory.keeps_last id m.last[id]?).alike hids hfree m m ⟨rfl, rfl⟩).2.2

theorem Memory.last_unlocked_grant (m : Memory) (owner : String) (a : Address) (id : Nat) :
    (m.grant owner a id).unlocked.last[id]? = some a :=
  (m.last_grant owner a id id).trans (if_pos rfl)

theorem Memory.owner?_unlocked_grant (m : Memory) (owner : String) (a : Address) (id : Nat) :
    (m.grant owner a id).unlocked.owner? a = some (Text.trim owner) :=
  (m.owner?_grant owner a a id).trans (if_pos rfl)

theorem Call.result_acquire (pool : Pool) (hs : pool.set.Sound) (owner : String) (m : Memory) :
    (∃ p l, pool.firstFree? m = some p ∧ l.address.address = p.address ∧
      result ((Call.acquire pool owner none).run Memory.store) m =
        (.ok (.lease l), (m.grant owner p.address pool.id).unlocked)) ∨
    ∃ e, result ((Call.acquire pool owner none).run Memory.store) m = (.error e, m.unlocked) := by
  have hacquire := Pool.result_acquire m owner hs none
  rw [Call.run]
  cases hchoice : pool.choice m none with
  | error e =>
    rw [hchoice] at hacquire
    exact Or.inr ⟨e, result_bind_of_error hacquire _⟩
  | ok p =>
    obtain ⟨hspanned, -, -⟩ := Pool.choice_eq_ok m hs hchoice
    obtain ⟨l, hl, hleased⟩ := Pool.lease_of_spanned hs hspanned
    rw [hchoice] at hacquire
    dsimp only at hacquire
    rw [hl] at hacquire
    exact Or.inl ⟨p, l, (Pool.choice_none_iff m).mp hchoice, hleased.address,
      result_bind_of_ok hacquire _⟩

theorem Pool.exists_split_of_firstFree? {s : RangeSet} {id : Nat} {m : Memory} {p : Position s}
    (h : firstFree? ⟨s, id⟩ m = some p) :
    ∃ passed rest, s.candidatesAfter m.last[id]? = passed ++ p :: rest ∧
      ∀ x ∈ passed, m.owner? x.address ≠ none := by
  obtain ⟨-, passed, rest, hsplit, htaken⟩ := List.find?_eq_some_iff_append.mp h
  refine ⟨passed, rest, hsplit, fun x hx hnone => ?_⟩
  have hreserved := htaken x hx
  rw [hnone] at hreserved
  cases hreserved

/-! ### Going round -/

/-- An address was reserved at some moment after one call of a history and before another. -/
def ReservedWithin (calls : List Call) (m : Memory) (i j : Nat) (a : Address) : Prop :=
  ∃ k, i < k ∧ k ≤ j ∧ (stateAfter Memory.store calls m k).owner? a ≠ none

section Round

variable {s : RangeSet} {id : Nat} {calls : List Call} {m : Memory} {i j k : Nat} {p q : Position s}

theorem ReservedWithin.mono {a : Address} (h : ReservedWithin calls m i j a) (hjk : j ≤ k) :
    ReservedWithin calls m i k a := by
  obtain ⟨t, hit, htj, ha⟩ := h
  exact ⟨t, hit, htj.trans hjk, ha⟩

/-- All candidates but one were reserved. -/
def OthersReserved (calls : List Call) (m : Memory) (i j : Nat) (p : Position s) : Prop :=
  ∀ q : Position s, q.Spanned → q.address ≠ q.range.gateway → q ≠ p →
    ReservedWithin calls m i j q.address

theorem OthersReserved.mono (h : OthersReserved calls m i j p) (hjk : j ≤ k) :
    OthersReserved calls m i k p :=
  fun q hspanned hgateway hne => (h q hspanned hgateway hne).mono hjk

/-- On the way round to a candidate, those that come behind it were reserved. -/
def Underway (id : Nat) (calls : List Call) (m : Memory) (i k : Nat) (p : Position s) : Prop :=
  ∃ a back front, (stateAfter Memory.store calls m k).last[id]? = some a ∧
    s.candidatesAfter (some a) = back ++ p :: front ∧
    ∀ q ∈ front, ReservedWithin calls m i k q.address

theorem othersReserved_of_passed (hs : s.Sound) {a? : Option Address}
    {back front : List (Position s)} (hcandidates : s.candidatesAfter a? = back ++ p :: front)
    (hback : ∀ q ∈ back, ReservedWithin calls m i k q.address)
    (hfront : ∀ q ∈ front, ReservedWithin calls m i k q.address) :
    OthersReserved calls m i k p := by
  intro q hspanned hgateway hne
  have hmem : q ∈ s.candidatesAfter a? := hs.mem_candidatesAfter.mpr ⟨hspanned, hgateway⟩
  rw [hcandidates, List.mem_append, List.mem_cons] at hmem
  rcases hmem with hmem | rfl | hmem
  · exact hback q hmem
  · exact absurd rfl hne
  · exact hfront q hmem

theorem Underway.taken (hs : s.Sound) (hplain : s.Unmapped) (hik : i < k)
    (h : Underway id calls m i k p)
    (hq : Pool.firstFree? ⟨s, id⟩ (stateAfter Memory.store calls m k) = some q) :
    OthersReserved calls m i k p ∨
      q ≠ p ∧ ∃ back front, s.candidatesAfter (some q.address) = back ++ p :: front ∧
        ∀ x ∈ front, x = q ∨ ReservedWithin calls m i k x.address := by
  obtain ⟨a, back, front, hlast, hcandidates, hfront⟩ := h
  have hspanned := (Pool.firstFree?_eq_some _ hs hq).1
  obtain ⟨passed, rest, hsplit, htaken⟩ := Pool.exists_split_of_firstFree? hq
  rw [hlast] at hsplit
  have hpassed : ∀ x ∈ passed, ReservedWithin calls m i k x.address :=
    fun x hx => ⟨k, hik, le_rfl, htaken x hx⟩
  rcases split_cases (hsplit.symm.trans hcandidates) with
    ⟨rfl, rfl, rfl⟩ | ⟨between, rfl, rfl⟩ | ⟨between, rfl, rfl⟩
  · exact Or.inl (othersReserved_of_passed hs hcandidates hpassed hfront)
  · right
    constructor
    · rintro rfl
      have hnodup := hs.candidatesAfter_nodup (some a)
      rw [hsplit, List.nodup_middle, List.nodup_cons] at hnodup
      exact hnodup.1 (by simp)
    · have hnext := hs.candidatesAfter_of_split hsplit (hs.mapped?_eq_none hplain hspanned)
      rw [List.append_assoc, List.cons_append] at hnext
      refine ⟨_, _, hnext, fun x hx => ?_⟩
      rw [List.mem_append, List.mem_append, List.mem_singleton] at hx
      rcases hx with hx | hx | hx
      · exact Or.inr (hfront x hx)
      · exact Or.inr (hpassed x hx)
      · exact Or.inl hx
  · refine Or.inl (othersReserved_of_passed hs hcandidates (fun x hx => ?_) hfront)
    exact hpassed x (List.mem_append_left _ hx)

theorem Underway.step (hs : s.Sound) (hplain : s.Unmapped) (hik : i < k) {c : Call}
    (hk : calls[k]? = some c)
    (hc : (∃ owner, c = .acquire ⟨s, id⟩ owner none) ∨ id ∉ c.setIds)
    (h : Underway id calls m i k p) :
    OthersReserved calls m i k p ∨ Underway id calls m i (k + 1) p := by
  have hstate := stateAfter_succ Memory.store hk m
  have hkept (hlast : (stateAfter Memory.store calls m (k + 1)).last[id]? =
      (stateAfter Memory.store calls m k).last[id]?) : Underway id calls m i (k + 1) p := by
    obtain ⟨a, back, front, ha, hcandidates, hfront⟩ := h
    exact ⟨a, back, front, hlast.trans ha, hcandidates,
      fun q hq => (hfront q hq).mono k.le_succ⟩
  rcases hc with ⟨owner, rfl⟩ | hid
  · rcases Call.result_acquire ⟨s, id⟩ hs owner (stateAfter Memory.store calls m k) with
      ⟨q, l, hq, -, hrun⟩ | ⟨e, hrun⟩
    · rw [hrun] at hstate
      rcases h.taken hs hplain hik hq with hothers | ⟨-, back, front, hcandidates, hfront⟩
      · exact Or.inl hothers
      · refine Or.inr ⟨q.address, back, front, ?_, hcandidates, fun x hx => ?_⟩
        · rw [hstate, Memory.last_unlocked_grant]
        · rcases hfront x hx with rfl | hx
          · refine ⟨k + 1, by omega, le_rfl, ?_⟩
            rw [hstate, Memory.owner?_unlocked_grant]
            exact Option.some_ne_none _
          · exact hx.mono k.le_succ
    · rw [hrun] at hstate
      exact Or.inr (hkept (by rw [hstate]; rfl))
  · exact Or.inr (hkept (by rw [hstate, Call.last_run hid]))

theorem Underway.run (hs : s.Sound) (hplain : s.Unmapped)
    (hcalls : ∀ c ∈ calls, (∃ owner, c = .acquire ⟨s, id⟩ owner none) ∨ id ∉ c.setIds)
    (h : Underway id calls m i (i + 1) p) (hij : i + 1 ≤ j) (hj : j ≤ calls.length) :
    OthersReserved calls m i j p ∨ Underway id calls m i j p := by
  induction j, hij using Nat.le_induction with
  | base => exact Or.inr h
  | succ k hik ih =>
    have hk : calls[k]? = some calls[k] := List.getElem?_eq_getElem hj
    rcases ih (Nat.le_of_succ_le hj) with hothers | hunderway
    · exact Or.inl (hothers.mono k.le_succ)
    · have hc := hcalls _ (List.getElem_mem hj)
      exact (hunderway.step hs hplain hik hk hc).imp_left fun hothers => hothers.mono k.le_succ

theorem exists_firstFree?_of_event (hs : s.Sound) {owner : String} {l : Lease}
    (h : (Action.result (history Memory.store calls) m).1[k]? =
      some ⟨.acquire ⟨s, id⟩ owner none, .ok (.lease l)⟩) :
    ∃ p : Position s, Pool.firstFree? ⟨s, id⟩ (stateAfter Memory.store calls m k) = some p ∧
      l.address.address = p.address ∧ k < calls.length ∧
      stateAfter Memory.store calls m (k + 1) =
        ((stateAfter Memory.store calls m k).grant owner p.address id).unlocked := by
  rw [getElem?_history, Option.map_eq_some_iff] at h
  obtain ⟨c, hk, hevent⟩ := h
  obtain ⟨rfl, hverdict⟩ := Event.mk.inj hevent
  have hstate := stateAfter_succ Memory.store hk m
  obtain ⟨hlength, -⟩ := List.getElem?_eq_some_iff.mp hk
  rcases Call.result_acquire ⟨s, id⟩ hs owner (stateAfter Memory.store calls m k) with
    ⟨p, l', hp, haddress, hrun⟩ | ⟨e, hrun⟩
  · rw [hrun] at hverdict hstate
    cases hverdict
    exact ⟨p, hp, haddress, hlength, hstate⟩
  · rw [hrun] at hverdict
    cases hverdict

end Round

/-- **Between two times that a set gives the same address of its choice, every other candidate was
reserved at some moment**, whatever calls are made besides that may not reserve for the set. -/
theorem others_reserved_between {s : RangeSet} (hs : s.Canonicalized)
    (hplain : s.isV4 = true ∨ s.Unmapped) {id : Nat} {calls : List Call}
    (hcalls : ∀ c ∈ calls, (∃ owner, c = .acquire ⟨s, id⟩ owner none) ∨ id ∉ c.setIds)
    {m : Memory} {events : List Event} {m' : Memory}
    (hrun : Action.result (history Memory.store calls) m = (events, m')) {i j : Nat} (hij : i < j)
    {owner owner' : String} {l l' : Lease}
    (hi : events[i]? = some ⟨.acquire ⟨s, id⟩ owner none, .ok (.lease l)⟩)
    (hj : events[j]? = some ⟨.acquire ⟨s, id⟩ owner' none, .ok (.lease l')⟩)
    (hsame : l.address.address = l'.address.address) :
    ∀ r ∈ s.members, ∀ b, r.Spans b → b ≠ r.gateway → b ≠ l.address.address →
      ReservedWithin calls m i j b := by
  have hs := hs.sound
  have hplain : s.Unmapped := hplain.elim hs.unmapped_of_isV4 fun h => h
  obtain rfl : (Action.result (history Memory.store calls) m).1 = events := congrArg Prod.fst hrun
  obtain ⟨p, hp, hlp, -, hstate⟩ := exists_firstFree?_of_event hs hi
  obtain ⟨q, hq, hlq, hlength, -⟩ := exists_firstFree?_of_event hs hj
  have hspanned := (Pool.firstFree?_eq_some _ hs hp).1
  have hqp : q = p := by
    have haddress : q.address = p.address := hlq.symm.trans (hsame.symm.trans hlp)
    have hspanned' : (s.member q.member).Spans p.address :=
      haddress ▸ (Pool.firstFree?_eq_some _ hs hq).1
    obtain ⟨member, address⟩ := q
    cases haddress
    cases hs.member_unique hspanned' hspanned
    rfl
  -- right after an address was given, it comes last
  have hfirst : Underway id calls m i (i + 1) p := by
    obtain ⟨passed, rest, hsplit, -⟩ := Pool.exists_split_of_firstFree? hp
    have hnext := hs.candidatesAfter_of_split hsplit (hs.mapped?_eq_none hplain hspanned)
    rw [← List.append_assoc] at hnext
    refine ⟨p.address, rest ++ passed, [], ?_, hnext, by simp⟩
    rw [hstate, Memory.last_unlocked_grant]
  have hothers : OthersReserved calls m i j p := by
    rcases hfirst.run hs hplain hcalls hij hlength.le with hothers | hunderway
    · exact hothers
    · exact (hunderway.taken hs hplain hij hq).resolve_right fun h => h.1 hqp
  intro r hr b hspans hgateway hne
  obtain ⟨t, rfl⟩ := List.mem_iff_get.mp hr
  exact hothers ⟨t, b⟩ hspans hgateway fun h => hne (hlp ▸ congrArg Position.address h)

/-- An address is given, freed, and given again, after the other one was given in between. -/
def roundCalls : List Call :=
  [.acquire ⟨pairSet, 0⟩ "dummy" none, .free (.ofNat .v4 0x0A000002),
    .acquire ⟨pairSet, 0⟩ "other" none, .reserve "third" (.ofNat .v4 0x0A000001) 1,
    .acquire ⟨pairSet, 0⟩ "dummy" none]

def Event.given? : Event → Option Address
  | ⟨_, .ok (.lease l)⟩ => some l.address.address
  | _ => none

theorem exists_event_of_given? (events : List Event) (k : Nat) {c : Call} {a : Address}
    (hcall : (events.map Event.call)[k]? = some c)
    (hgiven : (events.map Event.given?)[k]? = some (some a)) :
    ∃ l, events[k]? = some ⟨c, .ok (.lease l)⟩ ∧ l.address.address = a := by
  rw [List.getElem?_map, Option.map_eq_some_iff] at hcall hgiven
  obtain ⟨⟨c, v⟩, he, rfl⟩ := hcall
  obtain ⟨e, he', hgiven⟩ := hgiven
  cases he.symm.trans he'
  unfold Event.given? at hgiven
  split at hgiven
  · rename_i l heq
    cases heq
    exact ⟨l, he, Option.some.inj hgiven⟩
  · cases hgiven

theorem others_reserved_between_roundCalls : ∃ events m' l l',
    Action.result (history Memory.store roundCalls) {} = (events, m') ∧
    events[0]? = some ⟨.acquire ⟨pairSet, 0⟩ "dummy" none, .ok (.lease l)⟩ ∧
    events[4]? = some ⟨.acquire ⟨pairSet, 0⟩ "dummy" none, .ok (.lease l')⟩ ∧
    l.address.address = l'.address.address ∧
    ReservedWithin roundCalls {} 0 4 (.ofNat .v4 0x0A000003) := by
  have hgiven : (Action.result (history Memory.store roundCalls) {}).1.map Event.given? =
      [some (.ofNat .v4 0x0A000002), none, some (.ofNat .v4 0x0A000003), none,
        some (.ofNat .v4 0x0A000002)] := by
    decide +kernel
  have hcall : (Action.result (history Memory.store roundCalls) {}).1.map Event.call =
      roundCalls := map_call_history _ _
  rcases hrun : Action.result (history Memory.store roundCalls) {} with ⟨events, m'⟩
  rw [hrun] at hgiven hcall
  obtain ⟨l, hi, hl⟩ := exists_event_of_given? events 0
    (by rw [hcall]; rfl) (by rw [hgiven]; rfl)
  obtain ⟨l', hj, hl'⟩ := exists_event_of_given? events 4
    (by rw [hcall]; rfl) (by rw [hgiven]; rfl)
  have hcalls : ∀ c ∈ roundCalls,
      (∃ owner, c = .acquire ⟨pairSet, 0⟩ owner none) ∨ 0 ∉ c.setIds := by
    simp [roundCalls, Call.setIds]
  have hsame : l.address.address = l'.address.address := hl.trans hl'.symm
  refine ⟨events, m', l, l', rfl, hi, hj, hsame, ?_⟩
  refine others_reserved_between ⟨pairSet, rfl⟩ (Or.inl rfl) hcalls hrun (by decide) hi hj hsame
    _ List.mem_cons_self _ ⟨by decide, by decide⟩ (by decide) ?_
  rw [hl]
  decide

end AddressPool
