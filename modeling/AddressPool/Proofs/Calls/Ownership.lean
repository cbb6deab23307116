import AddressPool.Proofs.Allocation.Granted
import AddressPool.Proofs.Calls
import Mathlib.Tactic

/-!
# Who owns an address

No address is handed out twice.  Once a call has committed an address to an owner, the address stays
the owner's, and no call commits it again, until a call ends that: one that frees the address, one
that releases the owner, or a call for addresses of the same owner that fails, which takes all back
(`owner?_of_committed`).

A call changes the reservations of a memory in one of a few ways (`Event.Effect`), each of which
keeps what the call does not end.
-/

namespace AddressPool

open Attempt

namespace Event

/-- An event commits an address to an owner. -/
inductive Commits (owner : String) (a : Address) : Event → Prop
  | reserve (setId : Nat) : Commits owner a ⟨.reserve owner a setId, .ok (.won true)⟩
  | acquire (pool : Pool) (requested : Option Address) (l : Lease) : l.address.address = a →
      Commits owner a ⟨.acquire pool owner requested, .ok (.lease l)⟩
  | acquireAll (sets : List RangeSet) (requested : List Address) (ls : List Lease) (l : Lease) :
      l ∈ ls → l.address.address = a →
      Commits owner a ⟨.acquireAll sets owner requested, .ok (.leases ls)⟩

/-- An event ends what an owner has of an address.  All but the first do so for the same owner
only, blanks around the owner apart. -/
inductive Ends (owner : String) (a : Address) : Event → Prop
  | free (v : Except Error Answer) : Ends owner a ⟨.free a, v⟩
  | freeOwner (o : String) (v : Except Error Answer) : Text.trim o = Text.trim owner →
      Ends owner a ⟨.freeOwner o, v⟩
  | release (pool : Pool) (o : String) (v : Except Error Answer) :
      Text.trim o = Text.trim owner → Ends owner a ⟨.release pool o, v⟩
  | releaseAll (sets : List RangeSet) (o : String) (v : Except Error Answer) :
      Text.trim o = Text.trim owner → Ends owner a ⟨.releaseAll sets o, v⟩
  | acquireAll (sets : List RangeSet) (o : String) (requested : List Address) (e : Error) :
      Text.trim o = Text.trim owner → Ends owner a ⟨.acquireAll sets o requested, .error e⟩

/-! ### What one call does -/

/-- What an event does to the reservations of a memory. -/
inductive Effect (m m' : Memory) (e : Event) : Prop
  | kept : (∀ owner a, ¬ e.Commits owner a) → m'.owners = m.owners → Effect m m' e
  | granted (owner : String) (as : List Address) :
      (∀ o a, e.Commits o a → o = owner ∧ a ∈ as) → Memory.Granted owner as m m' → Effect m m' e
  | freed (a : Address) : (∀ owner, e.Ends owner a) → (∀ owner b, ¬ e.Commits owner b) →
      m'.owners = (m.release a).owners → Effect m m' e
  | released (owner : String) : (∀ o a, Text.trim owner = Text.trim o → e.Ends o a) →
      (∀ o a, ¬ e.Commits o a) → m'.owners = (m.releaseOwner owner).owners → Effect m m' e

/-- **Every call grants its owner addresses, releases some, or leaves the reservations alone.** -/
theorem effect {c : Call} (hc : ∀ s ∈ c.sets, s.Canonicalized) {m m' : Memory}
    {v : Except Error Answer} (h : result (c.run Memory.store) m = (v, m')) :
    Effect m m' ⟨c, v⟩ := by
  cases c with
  | reserve owner a setId =>
    rw [Call.run, result_bind, Memory.result_reserve] at h
    cases hfree : m.owner? a with
    | none =>
      rw [Memory.reserve_of_free setId hfree] at h
      cases h
      refine .granted owner [a] ?_ (.cons hfree setId (.nil rfl))
      rintro o b ⟨⟩
      exact ⟨rfl, List.mem_singleton_self a⟩
    | some o =>
      rw [Memory.reserve_of_taken setId (by simp [hfree])] at h
      cases h
      exact .kept (by rintro _ _ ⟨⟩) rfl
  | free a =>
    cases h
    exact .freed a (fun _ => .free _) (by rintro _ _ ⟨⟩) rfl
  | freeOwner owner =>
    cases h
    exact .released owner (fun _ _ ho => .freeOwner owner _ ho) (by rintro _ _ ⟨⟩) rfl
  | acquire pool owner requested =>
    have hs : pool.set.Sound := (hc pool.set (by simp [Call.sets])).sound
    rw [Call.run, result_bind] at h
    rcases hacquire : result (pool.acquire Memory.store owner requested) m with ⟨e | l, m₁⟩
    · rw [hacquire] at h
      have hkept : m₁ = m.unlocked := Pool.granted_acquire hs hacquire
      cases h
      exact .kept (by rintro _ _ ⟨⟩) (by rw [hkept]; rfl)
    · rw [hacquire] at h
      obtain ⟨hfree, rfl⟩ := Pool.granted_acquire hs hacquire
      cases h
      refine .granted owner [l.address.address] ?_ (.cons hfree pool.id (.nil rfl))
      intro o a hcommits
      cases hcommits with
      | acquire _ _ _ ha => exact ⟨rfl, by simp [ha]⟩
  | release pool owner =>
    rw [Call.run, result_bind, Pool.result_release] at h
    cases h
    exact .released owner (fun _ _ ho => .release pool owner _ ho) (by rintro _ _ ⟨⟩) rfl
  | acquireAll sets owner requested =>
    rw [Call.run, result_bind] at h
    rcases hall : result (allocateAll Memory.store sets owner requested) m with ⟨e | ls, m₁⟩
    · rw [hall] at h
      obtain ⟨k, -, hleft⟩ := allocateAll_error hc hall
      have howners := hleft.owners
      cases h
      split_ifs at howners
      · exact .kept (by rintro _ _ ⟨⟩) howners
      · exact .released owner (fun _ _ ho => .acquireAll sets owner requested e ho)
          (by rintro _ _ ⟨⟩) howners
    · rw [hall] at h
      have hgranted := allocateAll_granted hc hall
      cases h
      refine .granted owner _ ?_ hgranted
      intro o a hcommits
      cases hcommits with
      | acquireAll _ _ _ l hl ha => exact ⟨rfl, List.mem_map.mpr ⟨l, hl, ha⟩⟩
  | releaseAll sets owner =>
    rw [Call.run, result_bind, result_releaseAll] at h
    cases h
    cases pools sets with
    | nil => exact .kept (by rintro _ _ ⟨⟩) rfl
    | cons _ _ =>
      exact .released owner (fun _ _ ho => .releaseAll sets owner _ ho) (by rintro _ _ ⟨⟩) rfl

variable {m m' : Memory} {e : Event} {owner : String} {a : Address}

theorem Effect.owner?_of_commits (h : Effect m m' e) (hcommits : e.Commits owner a) :
    m'.owner? a = some (Text.trim owner) := by
  cases h with
  | kept hnone _ => exact absurd hcommits (hnone owner a)
  | granted o as has hgranted =>
    obtain ⟨rfl, ha⟩ := has owner a hcommits
    exact hgranted.owner?_of_mem ha
  | freed _ _ hnone _ => exact absurd hcommits (hnone owner a)
  | released _ _ hnone _ => exact absurd hcommits (hnone owner a)

theorem Effect.keeps (h : Effect m m' e) (howner : m.owner? a = some (Text.trim owner))
    (hends : ¬ e.Ends owner a) :
    m'.owner? a = some (Text.trim owner) ∧ ∀ o, ¬ e.Commits o a := by
  cases h with
  | kept hnone howners => exact ⟨by rw [Memory.owner?, howners]; exact howner, fun o => hnone o a⟩
  | granted o as has hgranted =>
    refine ⟨hgranted.keeps howner, fun o' hcommits => hgranted.text_ne howner ?_⟩
    exact ⟨a, (has o' a hcommits).2, rfl⟩
  | freed b hb hnone howners =>
    have hne : b ≠ a := fun hba => hends (hba ▸ hb owner)
    refine ⟨?_, fun o => hnone o a⟩
    rw [Memory.owner?, howners]
    exact (Memory.owner?_release m b a).trans ((if_neg hne).trans howner)
  | released o ho hnone howners =>
    refine ⟨?_, fun o => hnone o a⟩
    have hne : Text.trim owner ≠ Text.trim o := fun heq => hends (ho owner a heq.symm)
    rw [Memory.owner?, howners, Memory.owners_releaseOwner, Option.filter_eq_some_iff]
    exact ⟨howner, by simpa using hne⟩

end Event

/-! ### What a history does -/

variable {m m' : Memory} {owner : String} {a : Address}

theorem owner?_of_history {calls : List Call} (hcalls : ∀ c ∈ calls, ∀ s ∈ c.sets, s.Canonicalized)
    {events : List Event} (hrun : Action.result (history Memory.store calls) m = (events, m'))
    (howner : m.owner? a = some (Text.trim owner)) (hends : ∀ e ∈ events, ¬ e.Ends owner a) :
    m'.owner? a = some (Text.trim owner) ∧ ∀ e ∈ events, ∀ o, ¬ e.Commits o a := by
  induction calls generalizing m events with
  | nil =>
    cases hrun
    exact ⟨howner, fun _ he => absurd he List.not_mem_nil⟩
  | cons c calls ih =>
    obtain ⟨hc, hcalls⟩ := List.forall_mem_cons.mp hcalls
    rw [result_history_cons] at hrun
    rcases hcall : result (c.run Memory.store) m with ⟨v, m₁⟩
    rw [hcall] at hrun
    dsimp only at hrun
    rcases hrest : Action.result (history Memory.store calls) m₁ with ⟨rest, m₂⟩
    rw [hrest] at hrun
    cases hrun
    obtain ⟨hends, hrestEnds⟩ := List.forall_mem_cons.mp hends
    obtain ⟨howner, hcommits⟩ := (Event.effect hc hcall).keeps howner hends
    obtain ⟨howner, hrestCommits⟩ := ih hcalls hrest howner hrestEnds
    exact ⟨howner, List.forall_mem_cons.mpr ⟨hcommits, hrestCommits⟩⟩

/-- **No address is handed out twice.**  Whatever calls were made before on whatever memory, an
address that one has committed to an owner is the owner's at the end of every history in which no
later call ends that, and no later call has committed it to anybody. -/
theorem owner?_of_committed {calls : List Call}
    (hcalls : ∀ c ∈ calls, ∀ s ∈ c.sets, s.Canonicalized) {past later : List Event} {e : Event}
    (hrun : Action.result (history Memory.store calls) m = (past ++ e :: later, m'))
    (hcommits : e.Commits owner a) (hends : ∀ f ∈ later, ¬ f.Ends owner a) :
    m'.owner? a = some (Text.trim owner) ∧ ∀ f ∈ later, ∀ o, ¬ f.Commits o a := by
  obtain ⟨calls', m₁, hsub, hrun⟩ := exists_of_history_append hrun
  cases calls' with
  | nil => cases hrun
  | cons c calls' =>
    rw [result_history_cons] at hrun
    rcases hcall : result (c.run Memory.store) m₁ with ⟨v, m₂⟩
    rw [hcall] at hrun
    dsimp only at hrun
    rcases hrest : Action.result (history Memory.store calls') m₂ with ⟨rest, m₃⟩
    rw [hrest] at hrun
    cases hrun
    have hc := hcalls c (hsub List.mem_cons_self)
    have howner := (Event.effect hc hcall).owner?_of_commits hcommits
    exact owner?_of_history (fun c hc => hcalls c (hsub (List.mem_cons_of_mem _ hc))) hrest howner
      hends

/-- An owner takes the only address of a set, another one tries for it, and a third one gives up
what it has, which is nothing. -/
def rivalCalls : List Call :=
  [.acquireAll [tightSet 0] " dummy " [], .acquire ⟨tightSet 0, 7⟩ "other" none,
    .freeOwner "dummies"]

def Event.soleAddress? (e : Event) : Option Address :=
  match e.verdict with
  | .ok (.leases [l]) => some l.address.address
  | _ => none

theorem owner?_of_committed_rivalCalls : ∃ e later m',
    Action.result (history Memory.store rivalCalls) {} = ([] ++ e :: later, m') ∧
      e.Commits " dummy " (.ofNat .v4 0x0A000002) ∧
      (∀ f ∈ later, ¬ f.Ends " dummy " (.ofNat .v4 0x0A000002)) ∧
      m'.owner? (.ofNat .v4 0x0A000002) = some (Text.trim " dummy ") ∧
      ∀ f ∈ later, ∀ o, ¬ f.Commits o (.ofNat .v4 0x0A000002) := by
  have hgiven : (Action.result (history Memory.store rivalCalls) {}).1.head?.bind
      Event.soleAddress? = some (.ofNat .v4 0x0A000002) := by
    decide +kernel
  have hcalls : (Action.result (history Memory.store rivalCalls) {}).1.map Event.call =
      rivalCalls := map_call_history _ _
  rcases hrun : Action.result (history Memory.store rivalCalls) {} with ⟨events, m'⟩
  rw [hrun] at hgiven hcalls
  obtain ⟨⟨c, v⟩, later, rfl, rfl, hlater⟩ := List.map_eq_cons_iff.mp hcalls
  have hcommits : Event.Commits " dummy " (.ofNat .v4 0x0A000002)
      ⟨.acquireAll [tightSet 0] " dummy " [], v⟩ := by
    dsimp only [List.head?_cons, Option.bind_some, Event.soleAddress?] at hgiven
    split at hgiven
    · rename_i l
      exact .acquireAll _ _ [l] l (by simp) (Option.some.inj hgiven)
    · cases hgiven
  have hends : ∀ f ∈ later, ¬ f.Ends " dummy " (.ofNat .v4 0x0A000002) := by
    intro f hf hf'
    have hcall : f.call ∈ [.acquire ⟨tightSet 0, 7⟩ "other" none, .freeOwner "dummies"] :=
      hlater ▸ List.mem_map_of_mem hf
    cases hf' with
    | free | release | releaseAll | acquireAll => simp at hcall
    | freeOwner o v ho =>
      obtain rfl : o = "dummies" := by simpa using hcall
      exact absurd ho (by decide)
  have hsets : ∀ c ∈ rivalCalls, ∀ s ∈ c.sets, s.Canonicalized := by
    simp [rivalCalls, Call.sets, canonicalized_tightSets]
  rw [← List.nil_append (_ :: later)] at hrun
  exact ⟨_, later, m', rfl, hcommits, hends, owner?_of_committed hsets hrun hcommits hends⟩

end AddressPool
