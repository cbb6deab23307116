import AddressPool.Proofs.Allocation.Granted
import AddressPool.Proofs.Invocations
import Mathlib.Tactic

/-!
# Invocations of different owners do not disturb each other

Any number of invocations share one memory, and one step of one of them is made at a time, in any
order.  A step grants its own owner what was free, or releases its own owner, or leaves the
reservations alone (`Invocation.stepped`).  So what an invocation has got is kept by the steps of the
others, whose owners are different, and `Undisturbed` holds of every state that is reached
(`undisturbed_of_reaches`).
-/

namespace AddressPool

open Allocation Attempt

namespace Invocation

variable {owner : String} {got : List (Pool × Lease)} {waiting : List Address} {cause : Error}
  {causes : List String} {pools : List Pool} {i i' : Invocation} {m m' : Memory}

/-! ### How an invocation goes on -/

@[simp]
theorem owner_rollBack : (rollBack owner got cause pools).owner = owner := by
  cases pools <;> rfl

@[simp]
theorem owner_giveUp : (giveUp owner causes pools).owner = owner := by
  cases pools <;> rfl

@[simp]
theorem owner_ask : (ask owner got waiting pools).owner = owner := by
  cases pools with
  | nil =>
    unfold ask
    split_ifs
    · rfl
    · simp
  | cons pool pools => rfl

@[simp]
theorem unasked_rollBack : (rollBack owner got cause pools).unasked = [] := by
  cases pools <;> rfl

@[simp]
theorem unasked_giveUp : (giveUp owner causes pools).unasked = [] := by
  cases pools <;> rfl

@[simp]
theorem unasked_ask : (ask owner got waiting pools).unasked = pools := by
  cases pools with
  | nil =>
    unfold ask
    split_ifs
    · rfl
    · simp
  | cons pool pools => rfl

/-- What an invocation has is reserved for its owner, and what it has lost is not. -/
structure Settled (m : Memory) (i : Invocation) : Prop where
  holds : ∀ l ∈ i.holds, m.owner? l.address.address = some (Text.trim i.owner)
  lost : ∀ l ∈ i.lost, m.owner? l.address.address ≠ some (Text.trim i.owner)

theorem settled_rollBack
    (h : pools = [] → ∀ g ∈ got, m.owner? g.2.address.address ≠ some (Text.trim owner)) :
    Settled m (rollBack owner got cause pools) := by
  cases pools with
  | nil =>
    refine ⟨fun l hl => absurd hl List.not_mem_nil, fun l hl => ?_⟩
    obtain ⟨g, hg, rfl⟩ := List.mem_map.mp hl
    exact h rfl g hg
  | cons pool pools =>
    exact ⟨fun l hl => absurd hl List.not_mem_nil, fun l hl => absurd hl List.not_mem_nil⟩

theorem settled_giveUp : Settled m (giveUp owner causes pools) := by
  cases pools <;>
    exact ⟨fun l hl => absurd hl List.not_mem_nil, fun l hl => absurd hl List.not_mem_nil⟩

theorem settled_ask (h : ∀ g ∈ got, m.owner? g.2.address.address = some (Text.trim owner)) :
    Settled m (ask owner got waiting pools) := by
  have hgot : ∀ l ∈ got.map Prod.snd, m.owner? l.address.address = some (Text.trim owner) :=
    List.forall_mem_map.mpr h
  cases pools with
  | nil =>
    unfold ask
    split_ifs
    · exact ⟨hgot, fun l hl => absurd hl List.not_mem_nil⟩
    · apply settled_rollBack
      intro hnil g hg
      rw [List.map_eq_nil_iff.mp hnil] at hg
      exact absurd hg List.not_mem_nil
  | cons pool pools => exact ⟨hgot, fun l hl => absurd hl List.not_mem_nil⟩

/-! ### What a step does to the memory -/

/-- What a step of an invocation does to it and to a memory: what it has and what it has lost stay
right, and whoever is not the owner has neither more nor less. -/
structure Stepped (i i' : Invocation) (m m' : Memory) : Prop where
  owner : i'.owner = i.owner
  unasked : i'.unasked ⊆ i.unasked
  settled : i.Settled m → i'.Settled m'
  others : ∀ text o : String, o ≠ Text.trim i.owner →
    (m'.owners[text]? = some o ↔ m.owners[text]? = some o)

theorem others_releaseOwner {text o : String} (ho : o ≠ Text.trim owner) :
    (m.releaseOwner owner).owners[text]? = some o ↔ m.owners[text]? = some o := by
  rw [Memory.owners_releaseOwner, Option.filter_eq_some_iff]
  simp [ho]

theorem owner?_releaseOwner_ne (m : Memory) (owner : String) (a : Address) :
    (m.releaseOwner owner).owner? a ≠ some (Text.trim owner) := by
  rw [Memory.owner?, Memory.owners_releaseOwner, Ne, Option.filter_eq_some_iff]
  simp

theorem stepped (hsound : ∀ pool ∈ i.unasked, pool.set.Sound)
    (h : Action.result (step Memory.store i) m = (i', m')) : Stepped i i' m m' := by
  cases i with
  | asking owner got waiting pool pools =>
    have hs : pool.set.Sound := hsound pool List.mem_cons_self
    rw [result_step_asking] at h
    rcases hacquire : result (pool.acquire Memory.store owner
      (waiting.find? pool.set.contains)) m with ⟨e | l, m₁⟩
    · have hm : m₁ = m.unlocked := Pool.granted_acquire hs hacquire
      rw [hacquire] at h
      cases h
      refine ⟨owner_rollBack, by simp, fun _ => ?_, fun _ _ _ => by rw [hm]; rfl⟩
      apply settled_rollBack
      intro hnil g hg
      rw [List.map_eq_nil_iff.mp hnil] at hg
      exact absurd hg List.not_mem_nil
    · obtain ⟨hfree, hm⟩ := Pool.granted_acquire hs hacquire
      rw [hacquire] at h
      cases h
      have hgranted : Memory.Granted owner [l.address.address] m m' :=
        .cons hfree pool.id (.nil (by rw [hm]))
      refine ⟨owner_ask, ?_, fun hsettled => ?_, fun _ _ => hgranted.others_iff⟩
      · rw [unasked_ask]
        exact List.subset_cons_self pool pools
      · apply settled_ask
        intro g hg
        rcases List.mem_append.mp hg with hg | hg
        · exact hgranted.keeps (hsettled.holds g.2 (List.mem_map_of_mem hg))
        · rw [List.mem_singleton.mp hg]
          exact hgranted.owner?_of_mem (by simp)
  | rollingBack owner got cause pool pools =>
    rw [result_step_rollingBack, Pool.result_release] at h
    cases h
    refine ⟨owner_rollBack, by simp, fun _ => ?_, fun _ _ => others_releaseOwner⟩
    exact settled_rollBack fun _ g _ => owner?_releaseOwner_ne m owner _
  | releasing owner causes pool pools =>
    rw [result_step_releasing, Pool.result_release] at h
    cases h
    exact ⟨owner_giveUp, by simp, fun _ => settled_giveUp, fun _ _ => others_releaseOwner⟩
  | succeeded | failed | released =>
    cases h
    exact ⟨rfl, fun _ hp => hp, fun hsettled => hsettled, fun _ _ _ => Iff.rfl⟩

theorem Settled.of_others {o : String} (h : i.Settled m) (ho : Text.trim i.owner ≠ o)
    (hothers : ∀ text o' : String, o' ≠ o →
      (m'.owners[text]? = some o' ↔ m.owners[text]? = some o')) : i.Settled m' :=
  ⟨fun l hl => (hothers _ _ ho).mpr (h.holds l hl),
    fun l hl hm' => h.lost l hl ((hothers _ _ ho).mp hm')⟩

end Invocation

/-! ### Invocations that share a memory -/

/-- A call that goes through the sets of a network. -/
inductive Task where
  | acquireAll (sets : List RangeSet) (owner : String) (requested : List Address)
  | releaseAll (sets : List RangeSet) (owner : String)

namespace Task

def sets : Task → List RangeSet
  | acquireAll sets .. | releaseAll sets _ => sets

def owner : Task → String
  | acquireAll _ owner _ | releaseAll _ owner => owner

def start : Task → Invocation
  | acquireAll sets owner requested =>
    .ask owner [] (requests requested) (AddressPool.pools sets)
  | releaseAll sets owner => .giveUp owner [] (AddressPool.pools sets)

theorem owner_start (t : Task) : t.start.owner = t.owner := by
  cases t <;> simp [start, owner]

theorem unasked_start (t : Task) : t.start.unasked ⊆ AddressPool.pools t.sets := by
  cases t <;> simp [start, sets]

theorem settled_start (t : Task) (m : Memory) : t.start.Settled m := by
  cases t with
  | acquireAll sets owner requested => exact Invocation.settled_ask (by simp)
  | releaseAll sets owner => exact Invocation.settled_giveUp

end Task

variable {ι : Type}

/-- A memory and the invocations that share it. -/
structure Site (ι : Type) where
  memory : Memory
  invocations : ι → Invocation

namespace Site

def start (m : Memory) (tasks : ι → Task) : Site ι :=
  ⟨m, fun k => (tasks k).start⟩

def turn [DecidableEq ι] (site : Site ι) (k : ι) : Site ι :=
  match Action.result (Invocation.step Memory.store (site.invocations k)) site.memory with
  | (i, m) => ⟨m, Function.update site.invocations k i⟩

/-- A site is reached by turns of any invocations in any order. -/
def Reaches [DecidableEq ι] : Site ι → Site ι → Prop :=
  Relation.ReflTransGen fun site site' => ∃ k, site.turn k = site'

end Site

/-- The invocations for some tasks have not disturbed each other on a memory. -/
structure Undisturbed (m₀ : Memory) (tasks : ι → Task) (site : Site ι) : Prop where
  owner : ∀ k, (site.invocations k).owner = (tasks k).owner
  sound : ∀ k, ∀ pool ∈ (site.invocations k).unasked, pool.set.Sound
  settled : ∀ k, (site.invocations k).Settled site.memory
  others : ∀ text o : String, (∀ k, o ≠ Text.trim (tasks k).owner) →
    (site.memory.owners[text]? = some o ↔ m₀.owners[text]? = some o)

variable {m₀ : Memory} {tasks : ι → Task} {site : Site ι}

theorem undisturbed_start (hsets : ∀ k, ∀ s ∈ (tasks k).sets, s.Canonicalized) :
    Undisturbed m₀ tasks (.start m₀ tasks) where
  owner k := (tasks k).owner_start
  sound k _ hpool :=
    (hsets k _ (set_mem_of_mem_pools ((tasks k).unasked_start hpool))).sound
  settled k := (tasks k).settled_start m₀
  others _ _ _ := Iff.rfl

variable [DecidableEq ι]

/-- **A turn of one invocation disturbs none.** -/
theorem Undisturbed.turn (hdistinct : Function.Injective fun k => Text.trim (tasks k).owner)
    (h : Undisturbed m₀ tasks site) (k : ι) : Undisturbed m₀ tasks (site.turn k) := by
  rcases hstep : Action.result (Invocation.step Memory.store (site.invocations k)) site.memory with
    ⟨i, m⟩
  have hstepped := Invocation.stepped (h.sound k) hstep
  rw [Site.turn, hstep]
  refine ⟨fun j => ?_, fun j => ?_, fun j => ?_, fun text o ho => ?_⟩
  · by_cases hjk : j = k
    · subst hjk
      simp [hstepped.owner, h.owner]
    · simp [hjk, h.owner]
  · by_cases hjk : j = k
    · subst hjk
      simp only [Function.update_self]
      exact fun pool hpool => h.sound j pool (hstepped.unasked hpool)
    · simp only [Function.update_of_ne hjk]
      exact h.sound j
  · by_cases hjk : j = k
    · subst hjk
      simp only [Function.update_self]
      exact hstepped.settled (h.settled j)
    · simp only [Function.update_of_ne hjk]
      apply (h.settled j).of_others _ hstepped.others
      rw [h.owner, h.owner]
      exact hdistinct.ne hjk
  · have hne : o ≠ Text.trim (site.invocations k).owner := by
      rw [h.owner]
      exact ho k
    exact (hstepped.others text o hne).trans (h.others text o ho)

theorem undisturbed_of_reaches (hsets : ∀ k, ∀ s ∈ (tasks k).sets, s.Canonicalized)
    (hdistinct : Function.Injective fun k => Text.trim (tasks k).owner)
    (h : (Site.start m₀ tasks).Reaches site) : Undisturbed m₀ tasks site := by
  induction h with
  | refl => exact undisturbed_start hsets
  | tail _ hturn ih =>
    obtain ⟨k, rfl⟩ := hturn
    exact ih.turn hdistinct k

/-- **Interleaved invocations do not disturb each other.**  Any number of calls with different owners
share a memory, and one of them at a time asks a set for an address or releases one, in any order.
Then, however far they have come, a call that has not failed owns all that it has got, no two of
these have got the same address, a failed call that has been rolled back owns nothing of what it had
got, and the reservations of all other owners are as they were. -/
theorem invocations_undisturbed (hsets : ∀ k, ∀ s ∈ (tasks k).sets, s.Canonicalized)
    (hdistinct : Function.Injective fun k => Text.trim (tasks k).owner)
    (h : (Site.start m₀ tasks).Reaches site) :
    (∀ k, ∀ l ∈ (site.invocations k).holds,
      site.memory.owner? l.address.address = some (Text.trim (tasks k).owner)) ∧
    (∀ j k, j ≠ k → ∀ l ∈ (site.invocations j).holds, ∀ l' ∈ (site.invocations k).holds,
      l.address.address ≠ l'.address.address) ∧
    (∀ k, ∀ l ∈ (site.invocations k).lost,
      site.memory.owner? l.address.address ≠ some (Text.trim (tasks k).owner)) ∧
    ∀ text o : String, (∀ k, o ≠ Text.trim (tasks k).owner) →
      (site.memory.owners[text]? = some o ↔ m₀.owners[text]? = some o) := by
  have hu := undisturbed_of_reaches hsets hdistinct h
  have hholds : ∀ k, ∀ l ∈ (site.invocations k).holds,
      site.memory.owner? l.address.address = some (Text.trim (tasks k).owner) := by
    intro k l hl
    rw [← hu.owner]
    exact (hu.settled k).holds l hl
  refine ⟨hholds, ?_, ?_, hu.others⟩
  · intro j k hjk l hl l' hl' heq
    have howner := hholds j l hl
    rw [heq, hholds k l' hl'] at howner
    exact hdistinct.ne hjk (Option.some.inj howner).symm
  · intro k l hl
    rw [← hu.owner]
    exact (hu.settled k).lost l hl

/-- An owner who wants an address from two sets, of which the second has only one, and another owner
who wants that one. -/
def rivalTasks : Bool → Task
  | true => .acquireAll [tightSet 1, tightSet 0] "dummy" []
  | false => .acquireAll [tightSet 0] " other " []

/-- The first owner gets an address, the second takes the other one, and the first fails and is
rolled back. -/
def rivalSite : Site Bool :=
  [true, false, true, true].foldl Site.turn (.start {} rivalTasks)

theorem invocations_undisturbed_rivalSite :
    (rivalSite.invocations true).lost.map (·.address.address) = [.ofNat .v4 0x0A000102] ∧
    (rivalSite.invocations false).holds.map (·.address.address) = [.ofNat .v4 0x0A000002] ∧
    (∀ k, ∀ l ∈ (rivalSite.invocations k).holds,
      rivalSite.memory.owner? l.address.address = some (Text.trim (rivalTasks k).owner)) ∧
    (∀ j k, j ≠ k → ∀ l ∈ (rivalSite.invocations j).holds, ∀ l' ∈ (rivalSite.invocations k).holds,
      l.address.address ≠ l'.address.address) ∧
    (∀ k, ∀ l ∈ (rivalSite.invocations k).lost,
      rivalSite.memory.owner? l.address.address ≠ some (Text.trim (rivalTasks k).owner)) ∧
    ∀ text o : String, (∀ k, o ≠ Text.trim (rivalTasks k).owner) →
      (rivalSite.memory.owners[text]? = some o ↔ ({} : Memory).owners[text]? = some o) := by
  have hsets : ∀ k, ∀ s ∈ (rivalTasks k).sets, s.Canonicalized := by
    simp [rivalTasks, Task.sets, canonicalized_tightSets]
  have hdistinct : Function.Injective fun k => Text.trim (rivalTasks k).owner := by decide
  have hreaches : (Site.start {} rivalTasks).Reaches rivalSite :=
    .tail (.tail (.tail (.single ⟨true, rfl⟩) ⟨false, rfl⟩) ⟨true, rfl⟩) ⟨true, rfl⟩
  refine ⟨by decide +kernel, by decide +kernel, ?_⟩
  exact invocations_undisturbed hsets hdistinct hreaches

end AddressPool
