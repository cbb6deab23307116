import AddressPool.Proofs.Allocation.All
import Mathlib.Data.List.Forall2
import Mathlib.Data.Set.Basic
import Mathlib.Tactic

/-!
# When a call succeeds, and what it gives

A call goes through its sets in order and never takes back a choice.  For sets that do not overlap
that loses nothing: what one set takes, an address or a request, is none that another could have
used, so the choices of the sets behind are as they were (`servable_cons_iff`, `Due.of_grant`).
Hence the call succeeds if and only if the requests can be served and each other set has a free
candidate, and then it gives each set's request, or else its first free candidate, and changes
nothing more (`allocateAll_spec`).
-/

namespace AddressPool

open Allocation Attempt

/-- What a call for addresses needs to succeed: each requested address belongs to a set, is not the
gateway of the member that contains it, is free, and is the only one that its set is asked for; and
a set that is asked for none has an address to give. -/
structure Servable (m : Memory) (sets : List RangeSet) (requested : Set Address) : Prop where
  covered : ∀ a ∈ requested, ∃ s ∈ sets, s.contains a = true
  once : ∀ s ∈ sets, ∀ a ∈ requested, ∀ b ∈ requested,
    s.contains a = true → s.contains b = true → a = b
  notGateway : ∀ a ∈ requested, ∀ s ∈ sets, ∀ r ∈ s.members, r.contains a = true → a ≠ r.gateway
  free : ∀ a ∈ requested, m.owner? a = none
  stocked : ∀ s ∈ sets, (∀ a ∈ requested, s.contains a = false) →
    ∃ r ∈ s.members, ∃ a, r.Spans a ∧ a ≠ r.gateway ∧ m.owner? a = none

/-- The position that a set is to give: that of the requested address in it, or else the first
candidate that is free. -/
inductive Due (pool : Pool) (m : Memory) (requested : Set Address) (p : Position pool.set) : Prop
  | request : p.address ∈ requested → pool.set.find? p.address = some p.member →
      Due pool m requested p
  | choice : (∀ a ∈ requested, pool.set.contains a = false) → pool.firstFree? m = some p →
      Due pool m requested p

/-- What a call that succeeds has given, and what it has changed: each set has given the address
that it was to give, these are reserved for the owner and are in the markers of the sets, and the
lock is given back; other reservations and markers are as they were. -/
structure Served (owner : String) (m m' : Memory) (pools : List Pool) (requested : Set Address)
    (ls : List Lease) : Prop where
  length : ls.length = pools.length
  lease : ∀ (i : Nat) (pool : Pool) (l : Lease), pools[i]? = some pool → ls[i]? = some l →
    ∃ p, Due pool m requested p ∧ p.LeasedAs l
  owners : ∀ text : String, m'.owners[text]? =
    if ∃ l ∈ ls, l.address.address.text = text then some (Text.trim owner) else m.owners[text]?
  marker : ∀ (i : Nat) (pool : Pool) (l : Lease), pools[i]? = some pool → ls[i]? = some l →
    m'.last[pool.id]? = some l.address.address
  otherMarker : ∀ j, j ∉ pools.map Pool.id → m'.last[j]? = m.last[j]?
  held : m'.held = (m.held && pools.isEmpty)

/-! ### What a list loses -/

section Lists

variable {α : Type} {f : α → Bool}

theorem mem_eraseP_iff {as : List α} (hnodup : as.Nodup) {b : α} :
    b ∈ as.eraseP f ↔ b ∈ as ∧ as.find? f ≠ some b := by
  induction as with
  | nil => simp
  | cons a as ih =>
    obtain ⟨ha, hnodup⟩ := List.nodup_cons.mp hnodup
    by_cases hfa : f a = true
    · rw [List.eraseP_cons_of_pos hfa, List.find?_cons_of_pos hfa, List.mem_cons]
      constructor
      · intro hb
        refine ⟨Or.inr hb, fun hab => ha ?_⟩
        rw [Option.some.inj hab]
        exact hb
      · rintro ⟨rfl | hb, hne⟩
        · exact absurd rfl hne
        · exact hb
    · rw [List.eraseP_cons_of_neg hfa, List.find?_cons_of_neg hfa, List.mem_cons, List.mem_cons,
        ih hnodup]
      constructor
      · rintro (rfl | ⟨hb, hne⟩)
        · exact ⟨Or.inl rfl, fun hfound => hfa (List.find?_some hfound)⟩
        · exact ⟨Or.inr hb, hne⟩
      · rintro ⟨rfl | hb, hne⟩
        · exact Or.inl rfl
        · exact Or.inr ⟨hb, hne⟩

end Lists

/-! ### Sets that have nothing to do with each other -/

/-- Sets in canonical form that do not overlap and have different numbers. -/
structure Orderly (pools : List Pool) : Prop where
  sound : ∀ pool ∈ pools, pool.set.Sound
  disjoint : pools.Pairwise fun q r => q.set.overlaps r.set = false
  distinct : (pools.map Pool.id).Nodup

namespace Orderly

variable {pool q : Pool} {pools : List Pool} {a : Address}

theorem head (h : Orderly (pool :: pools)) : pool.set.Sound :=
  h.sound pool List.mem_cons_self

theorem tail (h : Orderly (pool :: pools)) : Orderly pools :=
  ⟨fun q hq => h.sound q (List.mem_cons_of_mem pool hq), (List.pairwise_cons.mp h.disjoint).2,
    (List.nodup_cons.mp h.distinct).2⟩

theorem id_notMem (h : Orderly (pool :: pools)) : pool.id ∉ pools.map Pool.id :=
  (List.nodup_cons.mp h.distinct).1

theorem not_spans (h : Orderly (pool :: pools)) (hq : q ∈ pools) (ha : pool.set.Spans a) :
    ¬ q.set.Spans a :=
  h.head.not_spans_of_not_overlaps (h.tail.sound q hq)
    ((List.pairwise_cons.mp h.disjoint).1 q hq) ha

theorem not_contains (h : Orderly (pool :: pools)) (hq : q ∈ pools)
    (ha : pool.set.contains a = true) : ¬ q.set.contains a = true := fun hqa =>
  h.not_spans hq (h.head.spans_of_contains ha) ((h.tail.sound q hq).spans_of_contains hqa)

theorem address_ne (h : Orderly (pool :: pools)) (hq : q ∈ pools) {p : Position pool.set}
    (hp : p.Spanned) {r : Range} (hr : r ∈ q.set.members) (ha : r.Spans a) : a ≠ p.address := by
  rintro rfl
  exact h.not_spans hq ⟨p.range, pool.set.member_mem p.member, hp⟩ ⟨r, hr, ha⟩

end Orderly

/-- The canonical forms of some requests that wait for a set, each once. -/
structure Waiting (waiting : List Address) : Prop where
  nodup : waiting.Nodup
  canonical : ∀ a ∈ waiting, a.canonical = a

namespace Waiting

variable {pool q : Pool} {pools : List Pool} {waiting : List Address} {a : Address}

theorem eraseP (h : Waiting waiting) (f : Address → Bool) : Waiting (waiting.eraseP f) :=
  ⟨h.nodup.sublist List.eraseP_sublist, fun a ha => h.canonical a (List.mem_of_mem_eraseP ha)⟩

theorem mem_eraseP_of_contains (h : Waiting waiting) (ho : Orderly (pool :: pools))
    (hq : q ∈ pools) (ha : a ∈ waiting) (hqa : q.set.contains a = true) :
    a ∈ waiting.eraseP pool.set.contains :=
  (mem_eraseP_iff h.nodup).mpr
    ⟨ha, fun hfound => ho.not_contains hq (List.find?_some hfound) hqa⟩

end Waiting

/-! ### One set -/

section Step

variable {pool : Pool} {pools : List Pool} {m : Memory} {owner : String} {waiting : List Address}
  {p : Position pool.set}

theorem owner?_grant_eq_none_iff {a b : Address} {setId : Nat} :
    (m.grant owner a setId).unlocked.owner? b = none ↔ b ≠ a ∧ m.owner? b = none := by
  change (m.grant owner a setId).owner? b = none ↔ _
  rw [Memory.owner?_grant]
  by_cases hab : a = b
  · simp [hab]
  · simp [hab, Ne.symm hab]

theorem Servable.exists_choice (h : Orderly (pool :: pools)) (hw : Waiting waiting)
    (hservable : Servable m ((pool :: pools).map Pool.set) {a | a ∈ waiting}) :
    ∃ p, pool.choice m (waiting.find? pool.set.contains) = .ok p := by
  have hpool : pool.set ∈ (pool :: pools).map Pool.set := List.mem_cons_self
  cases hfind : waiting.find? pool.set.contains with
  | none =>
    have hnone : ∀ a ∈ {a | a ∈ waiting}, pool.set.contains a = false := by
      intro a ha
      exact Bool.eq_false_iff.mpr (List.find?_eq_none.mp hfind a ha)
    obtain ⟨p, hp⟩ :=
      (Pool.exists_firstFree?_iff m h.head).mpr (hservable.stocked pool.set hpool hnone)
    exact ⟨p, (Pool.choice_none_iff m).mpr hp⟩
  | some a =>
    have ha := List.mem_of_find?_eq_some hfind
    have hset : pool.set.contains a = true := List.find?_some hfind
    obtain ⟨i, hi⟩ := Option.isSome_iff_exists.mp hset
    have hcontains := RangeSet.contains_of_find? hi
    rw [hw.canonical a ha] at hcontains
    exact ⟨⟨i, a⟩, (Pool.choice_some_iff m (hw.canonical a ha)).mpr ⟨hi, rfl,
      hservable.notGateway a ha pool.set hpool _ (pool.set.member_mem i) hcontains,
      hservable.free a ha⟩⟩

theorem Servable.tail (h : Orderly (pool :: pools)) (hw : Waiting waiting)
    (hservable : Servable m ((pool :: pools).map Pool.set) {a | a ∈ waiting})
    (hspanned : p.Spanned) :
    Servable (m.grant owner p.address pool.id).unlocked (pools.map Pool.set)
      {a | a ∈ waiting.eraseP pool.set.contains} := by
  have hsub : ∀ a, a ∈ waiting.eraseP pool.set.contains → a ∈ waiting := fun a =>
    List.mem_of_mem_eraseP
  have hpool : pool.set ∈ (pool :: pools).map Pool.set := List.mem_cons_self
  have hcovered : ∀ a ∈ waiting.eraseP pool.set.contains,
      ∃ q ∈ pools, q.set.contains a = true := by
    intro a ha
    obtain ⟨haw, hne⟩ := (mem_eraseP_iff hw.nodup).mp ha
    obtain ⟨s, hs, hsa⟩ := hservable.covered a haw
    rw [List.map_cons, List.mem_cons, List.mem_map] at hs
    rcases hs with rfl | ⟨q, hq, rfl⟩
    · -- then the request that the set takes is another one for it
      cases hfind : waiting.find? pool.set.contains with
      | none => exact absurd hsa (List.find?_eq_none.mp hfind a haw)
      | some b =>
        have hab := hservable.once pool.set hpool a haw b (List.mem_of_find?_eq_some hfind) hsa
          (List.find?_some hfind)
        exact absurd (hab ▸ hfind) hne
    · exact ⟨q, hq, hsa⟩
  refine ⟨?_, ?_, ?_, ?_, ?_⟩
  · intro a ha
    obtain ⟨q, hq, hqa⟩ := hcovered a ha
    exact ⟨q.set, List.mem_map_of_mem hq, hqa⟩
  · intro s hs a ha b hb
    exact hservable.once s (List.mem_cons_of_mem _ hs) a (hsub a ha) b (hsub b hb)
  · intro a ha s hs
    exact hservable.notGateway a (hsub a ha) s (List.mem_cons_of_mem _ hs)
  · intro a ha
    obtain ⟨q, hq, hqa⟩ := hcovered a ha
    obtain ⟨r, hr, hra⟩ := (h.tail.sound q hq).spans_of_contains hqa
    rw [hw.canonical a (hsub a ha)] at hra
    exact owner?_grant_eq_none_iff.mpr
      ⟨h.address_ne hq hspanned hr hra, hservable.free a (hsub a ha)⟩
  · intro s hs hnone
    obtain ⟨q, hq, rfl⟩ := List.mem_map.mp hs
    have hnone' : ∀ a ∈ {a | a ∈ waiting}, q.set.contains a = false := by
      intro a ha
      by_contra hqa
      rw [Bool.not_eq_false] at hqa
      rw [hnone a (hw.mem_eraseP_of_contains h hq ha hqa)] at hqa
      cases hqa
    obtain ⟨r, hr, a, hspans, hgateway, hfree⟩ :=
      hservable.stocked q.set (List.mem_cons_of_mem _ hs) hnone'
    exact ⟨r, hr, a, hspans, hgateway, owner?_grant_eq_none_iff.mpr
      ⟨h.address_ne hq hspanned hr hspans, hfree⟩⟩

theorem Servable.of_tail (h : Orderly (pool :: pools)) (hw : Waiting waiting)
    (hchoice : pool.choice m (waiting.find? pool.set.contains) = .ok p)
    (hservable : Servable (m.grant owner p.address pool.id).unlocked (pools.map Pool.set)
      {a | a ∈ waiting.eraseP pool.set.contains}) :
    Servable m ((pool :: pools).map Pool.set) {a | a ∈ waiting} := by
  -- a request is the one that the set takes, or it goes on waiting for a set behind
  have hcases : ∀ a ∈ waiting, waiting.find? pool.set.contains = some a ∨
      a ∈ waiting.eraseP pool.set.contains ∧ ∃ q ∈ pools, q.set.contains a = true := by
    intro a ha
    by_cases hfind : waiting.find? pool.set.contains = some a
    · exact Or.inl hfind
    · have hrest := (mem_eraseP_iff hw.nodup).mpr ⟨ha, hfind⟩
      obtain ⟨s, hs, hsa⟩ := hservable.covered a hrest
      obtain ⟨q, hq, rfl⟩ := List.mem_map.mp hs
      exact Or.inr ⟨hrest, q, hq, hsa⟩
  have htaken : ∀ a ∈ waiting, pool.set.contains a = true →
      waiting.find? pool.set.contains = some a := by
    intro a ha hsa
    rcases hcases a ha with hfind | ⟨-, q, hq, hqa⟩
    · exact hfind
    · exact absurd hqa (h.not_contains hq hsa)
  have hchosen : ∀ a, waiting.find? pool.set.contains = some a →
      pool.set.find? a = some p.member ∧ p.address = a ∧ a ≠ p.range.gateway ∧
        m.owner? a = none := by
    intro a hfind
    rw [hfind] at hchoice
    exact (Pool.choice_some_iff m (hw.canonical a (List.mem_of_find?_eq_some hfind))).mp hchoice
  refine ⟨?_, ?_, ?_, ?_, ?_⟩
  · intro a ha
    rcases hcases a ha with hfind | ⟨-, q, hq, hqa⟩
    · exact ⟨pool.set, List.mem_cons_self, List.find?_some hfind⟩
    · exact ⟨q.set, List.mem_cons_of_mem _ (List.mem_map_of_mem hq), hqa⟩
  · intro s hs a ha b hb hsa hsb
    rw [List.map_cons, List.mem_cons, List.mem_map] at hs
    rcases hs with rfl | ⟨q, hq, rfl⟩
    · exact Option.some.inj ((htaken a ha hsa).symm.trans (htaken b hb hsb))
    · exact hservable.once q.set (List.mem_map_of_mem hq) a
        (hw.mem_eraseP_of_contains h hq ha hsa) b (hw.mem_eraseP_of_contains h hq hb hsb) hsa hsb
  · intro a ha s hs r hr hra
    have hsa : s.contains a = true := by
      refine RangeSet.contains_iff.mpr ⟨r, hr, ?_⟩
      rw [hw.canonical a ha]
      exact hra
    rw [List.map_cons, List.mem_cons, List.mem_map] at hs
    rcases hs with rfl | ⟨q, hq, rfl⟩
    · obtain ⟨hfind, -, hgateway, -⟩ := hchosen a (htaken a ha hsa)
      have hspans := h.head.spans_of_find? hfind
      obtain ⟨i, rfl⟩ := List.mem_iff_get.mp hr
      rw [h.head.member_unique (i := i) ((h.head.member i).spans_of_contains hra) hspans]
      exact hgateway
    · exact hservable.notGateway a (hw.mem_eraseP_of_contains h hq ha hsa) q.set
        (List.mem_map_of_mem hq) r hr hra
  · intro a ha
    rcases hcases a ha with hfind | ⟨hrest, -⟩
    · exact (hchosen a hfind).2.2.2
    · exact (owner?_grant_eq_none_iff.mp (hservable.free a hrest)).2
  · intro s hs hnone
    rw [List.map_cons, List.mem_cons, List.mem_map] at hs
    rcases hs with rfl | ⟨q, hq, rfl⟩
    · have hfind : waiting.find? pool.set.contains = none :=
        List.find?_eq_none.mpr fun a ha => by simp [hnone a ha]
      rw [hfind] at hchoice
      exact (Pool.exists_firstFree?_iff m h.head).mp ⟨p, (Pool.choice_none_iff m).mp hchoice⟩
    · obtain ⟨r, hr, a, hspans, hgateway, hfree⟩ := hservable.stocked q.set
        (List.mem_map_of_mem hq) fun a ha => hnone a (List.mem_of_mem_eraseP ha)
      exact ⟨r, hr, a, hspans, hgateway, (owner?_grant_eq_none_iff.mp hfree).2⟩

theorem servable_cons_iff (owner : String) (h : Orderly (pool :: pools)) (hw : Waiting waiting)
    (hchoice : pool.choice m (waiting.find? pool.set.contains) = .ok p) :
    Servable m ((pool :: pools).map Pool.set) {a | a ∈ waiting} ↔
      Servable (m.grant owner p.address pool.id).unlocked (pools.map Pool.set)
        {a | a ∈ waiting.eraseP pool.set.contains} :=
  ⟨fun hservable => hservable.tail h hw (Pool.choice_eq_ok m h.head hchoice).1,
    fun hservable => hservable.of_tail h hw hchoice⟩

theorem due_of_choice (hw : Waiting waiting)
    (hchoice : pool.choice m (waiting.find? pool.set.contains) = .ok p) :
    Due pool m {a | a ∈ waiting} p := by
  cases hfind : waiting.find? pool.set.contains with
  | none =>
    rw [hfind] at hchoice
    exact .choice (fun a ha => Bool.eq_false_iff.mpr (List.find?_eq_none.mp hfind a ha))
      ((Pool.choice_none_iff m).mp hchoice)
  | some a =>
    have ha := List.mem_of_find?_eq_some hfind
    rw [hfind] at hchoice
    obtain ⟨hset, rfl, -⟩ := (Pool.choice_some_iff m (hw.canonical a ha)).mp hchoice
    exact .request ha hset

theorem Orderly.firstFree?_grant {q : Pool} (h : Orderly (pool :: pools)) (hq : q ∈ pools)
    (hspanned : p.Spanned) :
    q.firstFree? (m.grant owner p.address pool.id).unlocked = q.firstFree? m := by
  have hmarker : (m.grant owner p.address pool.id).unlocked.last[q.id]? = m.last[q.id]? := by
    refine (Memory.last_grant m owner p.address pool.id q.id).trans (if_neg fun hid => ?_)
    exact h.id_notMem (hid ▸ List.mem_map_of_mem hq)
  rw [Pool.firstFree?, Pool.firstFree?, hmarker]
  refine List.find?_congr fun c hc => ?_
  have hne := h.address_ne hq hspanned (q.set.member_mem c.member)
    ((h.tail.sound q hq).mem_candidatesAfter.mp hc).1
  rw [Bool.eq_iff_iff, Option.isNone_iff_eq_none, Option.isNone_iff_eq_none,
    owner?_grant_eq_none_iff]
  exact and_iff_right hne

theorem Due.of_grant {q : Pool} (h : Orderly (pool :: pools)) (hw : Waiting waiting)
    (hq : q ∈ pools) (hspanned : p.Spanned) {c : Position q.set}
    (hdue : Due q (m.grant owner p.address pool.id).unlocked
      {a | a ∈ waiting.eraseP pool.set.contains} c) :
    Due q m {a | a ∈ waiting} c := by
  rcases hdue with ⟨hmem, hfind⟩ | ⟨hnone, hfirst⟩
  · exact .request (List.mem_of_mem_eraseP hmem) hfind
  · refine .choice ?_ (h.firstFree?_grant hq hspanned ▸ hfirst)
    intro a ha
    by_contra hqa
    rw [Bool.not_eq_false] at hqa
    rw [hnone a (hw.mem_eraseP_of_contains h hq ha hqa)] at hqa
    cases hqa

theorem Served.cons {m' : Memory} {ls : List Lease} {l : Lease} (h : Orderly (pool :: pools))
    (hw : Waiting waiting) (hspanned : p.Spanned) (hdue : Due pool m {a | a ∈ waiting} p)
    (hl : p.LeasedAs l)
    (hserved : Served owner (m.grant owner p.address pool.id).unlocked m' pools
      {a | a ∈ waiting.eraseP pool.set.contains} ls) :
    Served owner m m' (pool :: pools) {a | a ∈ waiting} (l :: ls) := by
  refine ⟨?_, ?_, ?_, ?_, ?_, ?_⟩
  · rw [List.length_cons, List.length_cons, hserved.length]
  · rintro (_ | i) q k hq hk
    · cases hq
      cases hk
      exact ⟨p, hdue, hl⟩
    · obtain ⟨c, hcdue, hc⟩ := hserved.lease i q k hq hk
      exact ⟨c, hcdue.of_grant h hw (List.mem_of_getElem? hq) hspanned, hc⟩
  · intro text
    rw [hserved.owners]
    change (if _ then _ else (m.grant owner p.address pool.id).owners[text]?) = _
    rw [Memory.owners_grant, ← hl.address]
    simp only [List.mem_cons, exists_eq_or_imp]
    by_cases hrest : ∃ k ∈ ls, k.address.address.text = text
    · rw [if_pos hrest, if_pos (Or.inr hrest)]
    · by_cases hfirst : l.address.address.text = text
      · rw [if_neg hrest, if_pos hfirst, if_pos (Or.inl hfirst)]
      · rw [if_neg hrest, if_neg hfirst, if_neg (not_or.mpr ⟨hfirst, hrest⟩)]
  · rintro (_ | i) q k hq hk
    · cases hq
      cases hk
      rw [hserved.otherMarker _ h.id_notMem, hl.address]
      exact (Memory.last_grant m owner p.address pool.id pool.id).trans (if_pos rfl)
    · exact hserved.marker i q k hq hk
  · intro j hj
    rw [List.map_cons, List.mem_cons, not_or] at hj
    rw [hserved.otherMarker j hj.2]
    exact (Memory.last_grant m owner p.address pool.id j).trans (if_neg (Ne.symm hj.1))
  · rw [hserved.held]
    exact (Bool.and_false m.held).symm

end Step

/-! ### All sets -/

section Run

variable {owner : String} {phase : Phase} {given pools : List Pool} {waiting : List Address}
  {m m' : Memory} {ls : List Lease}

theorem servable_nil_iff :
    Servable m ([] : List RangeSet) {a | a ∈ waiting} ↔ waiting = [] := by
  constructor
  · intro h
    refine List.eq_nil_iff_forall_not_mem.mpr fun a ha => ?_
    obtain ⟨s, hs, -⟩ := h.covered a ha
    cases hs
  · rintro rfl
    exact ⟨fun a ha => (by cases ha), fun s hs => (by cases hs), fun a ha => (by cases ha),
      fun a ha => (by cases ha), fun s hs => (by cases hs)⟩

/-- **The sets that are left give an address each if and only if they can be served.** -/
theorem acquireEach_ok_iff (h : Orderly pools) (hw : Waiting waiting) :
    (∃ ls m', Action.result (acquireEach Memory.store owner phase given waiting pools) m =
      (.ok ls, m')) ↔ Servable m (pools.map Pool.set) {a | a ∈ waiting} := by
  induction pools generalizing phase given waiting m with
  | nil =>
    rw [List.map_nil, servable_nil_iff]
    by_cases hwaiting : waiting = []
    · exact iff_of_true ⟨[], m, hwaiting ▸ result_acquireEach_nil _ _ _ _ _⟩ hwaiting
    · refine iff_of_false ?_ hwaiting
      rintro ⟨ls, m', hrun⟩
      rw [result_acquireEach_of_waiting _ _ _ _ _ _ hwaiting] at hrun
      cases hrun
  | cons pool pools ih =>
    cases hchoice : pool.choice m (waiting.find? pool.set.contains) with
    | error e =>
      refine iff_of_false ?_ fun hservable => ?_
      · rintro ⟨ls, m', hrun⟩
        rw [result_acquireEach_of_error h.head hchoice] at hrun
        cases hrun
      · obtain ⟨p, hp⟩ := hservable.exists_choice h hw
        rw [hchoice] at hp
        cases hp
    | ok p =>
      obtain ⟨hspanned, -⟩ := Pool.choice_eq_ok m h.head hchoice
      obtain ⟨l, hl, -⟩ := Pool.lease_of_spanned h.head hspanned
      rw [result_acquireEach_of_ok h.head hchoice hl]
      have hrest : (∃ ls m', Action.result (acquireEach Memory.store owner (.allocating pool.id)
          (given ++ [pool]) (waiting.eraseP pool.set.contains) pools)
          (m.grant owner p.address pool.id).unlocked = (.ok ls, m')) ↔ _ :=
        ih h.tail (hw.eraseP pool.set.contains)
      rw [servable_cons_iff owner h hw hchoice, ← hrest]
      rcases Action.result (acquireEach Memory.store owner _ _ _ pools) _ with ⟨_ | ls, m'⟩
      · exact iff_of_false (by rintro ⟨ls, m', hrun⟩; cases hrun)
          (by rintro ⟨ls, m', hrun⟩; cases hrun)
      · exact iff_of_true ⟨l :: ls, m', rfl⟩ ⟨ls, m', rfl⟩

/-- **What the sets that are left give is what they are to give.** -/
theorem acquireEach_ok (h : Orderly pools) (hw : Waiting waiting)
    (hrun : Action.result (acquireEach Memory.store owner phase given waiting pools) m =
      (.ok ls, m')) : Served owner m m' pools {a | a ∈ waiting} ls := by
  induction pools generalizing phase given waiting m ls with
  | nil =>
    by_cases hwaiting : waiting = []
    · rw [hwaiting, result_acquireEach_nil] at hrun
      cases hrun
      exact ⟨rfl, fun i q l hq => (by cases hq), fun text => by simp,
        fun i q l hq => (by cases hq), fun j _ => rfl, (Bool.and_true _).symm⟩
    · rw [result_acquireEach_of_waiting _ _ _ _ _ _ hwaiting] at hrun
      cases hrun
  | cons pool pools ih =>
    cases hchoice : pool.choice m (waiting.find? pool.set.contains) with
    | error e =>
      rw [result_acquireEach_of_error h.head hchoice] at hrun
      cases hrun
    | ok p =>
      obtain ⟨hspanned, -⟩ := Pool.choice_eq_ok m h.head hchoice
      obtain ⟨l, hl, hleased⟩ := Pool.lease_of_spanned h.head hspanned
      rw [result_acquireEach_of_ok h.head hchoice hl] at hrun
      rcases hrest : Action.result (acquireEach Memory.store owner (.allocating pool.id)
        (given ++ [pool]) (waiting.eraseP pool.set.contains) pools)
        (m.grant owner p.address pool.id).unlocked with ⟨_ | ls, m'⟩
      · rw [hrest] at hrun
        cases hrun
      · rw [hrest] at hrun
        cases hrun
        exact (ih h.tail (hw.eraseP _) hrest).cons h hw hspanned (due_of_choice hw hchoice) hleased

end Run

/-! ### The whole call -/

theorem orderly_pools {sets : List RangeSet} (hsets : ∀ s ∈ sets, s.Canonicalized)
    (hdisjoint : sets.Pairwise fun s t => s.overlaps t = false) : Orderly (pools sets) := by
  refine ⟨fun q hq => (hsets _ (set_mem_of_mem_pools hq)).sound, ?_, ?_⟩
  · rw [← List.pairwise_map (f := Pool.set) (R := fun s t => s.overlaps t = false), map_set_pools]
    exact hdisjoint
  · rw [map_id_pools]
    exact List.nodup_range

theorem waiting_requests (addresses : List Address) : Waiting (requests addresses) := by
  refine ⟨requests_nodup addresses, fun a ha => ?_⟩
  obtain ⟨b, -, rfl⟩ := mem_requests.mp ha
  exact b.canonical_canonical

/-- **A call for addresses from sets that do not overlap succeeds exactly if they can all be served,
and then it gives each set's request or else its next free candidate, and changes nothing more.** -/
theorem allocateAll_spec {sets : List RangeSet} (hsets : ∀ s ∈ sets, s.Canonicalized)
    (hdisjoint : sets.Pairwise fun s t => s.overlaps t = false) (m : Memory) (owner : String)
    (addresses : List Address) :
    ((∃ ls m', result (allocateAll Memory.store sets owner addresses) m = (.ok ls, m')) ↔
      Servable m sets {a | ∃ b ∈ addresses, b.canonical = a}) ∧
    ∀ ls m', result (allocateAll Memory.store sets owner addresses) m = (.ok ls, m') →
      Served owner m m' (pools sets) {a | ∃ b ∈ addresses, b.canonical = a} ls := by
  have horderly := orderly_pools hsets hdisjoint
  have hwaiting := waiting_requests addresses
  have hrequests : {a | a ∈ requests addresses} = {a | ∃ b ∈ addresses, b.canonical = a} :=
    Set.ext fun _ => mem_requests
  rw [← hrequests]
  refine ⟨?_, fun ls m' hrun => acquireEach_ok horderly hwaiting hrun⟩
  have hiff : (∃ ls m', result (allocateAll Memory.store sets owner addresses) m = (.ok ls, m')) ↔
      Servable m ((pools sets).map Pool.set) {a | a ∈ requests addresses} :=
    acquireEach_ok_iff horderly hwaiting
  rwa [map_set_pools] at hiff

def halfTaken : Memory where
  owners := (∅ : Std.ExtTreeMap String String).insert "10.0.0.2" "other"

theorem allocateAll_spec_halfTaken : ∃ ls m',
    result (allocateAll Memory.store [pairSet, tightSet 1] " dummy" [.ofNat .v4 0x0A000102])
      halfTaken = (.ok ls, m') ∧
    ls.map (·.address.address) = [.ofNat .v4 0x0A000003, .ofNat .v4 0x0A000102] ∧
    Served " dummy" halfTaken m' (pools [pairSet, tightSet 1])
      {a | ∃ b ∈ [.ofNat .v4 0x0A000102], Address.canonical b = a} ls := by
  have hsets : ∀ s ∈ [pairSet, tightSet 1], s.Canonicalized := by
    simp only [List.forall_mem_cons, List.not_mem_nil, false_implies, implies_true, and_true]
    exact ⟨⟨pairSet, rfl⟩, ⟨tightSet 1, rfl⟩⟩
  have hdisjoint : [pairSet, tightSet 1].Pairwise fun s t => s.overlaps t = false := by decide
  have hspec := (allocateAll_spec hsets hdisjoint halfTaken " dummy" [.ofNat .v4 0x0A000102]).2
  have hrun : (result (allocateAll Memory.store [pairSet, tightSet 1] " dummy"
      [.ofNat .v4 0x0A000102]) halfTaken).1.toOption.map (·.map (·.address.address)) =
        some [.ofNat .v4 0x0A000003, .ofNat .v4 0x0A000102] := by
    decide +kernel
  generalize result (allocateAll Memory.store [pairSet, tightSet 1] " dummy"
    [.ofNat .v4 0x0A000102]) halfTaken = r at hrun hspec ⊢
  obtain ⟨_ | ls, m'⟩ := r
  · cases hrun
  · exact ⟨ls, m', rfl, Option.some.inj hrun, hspec ls m' rfl⟩

end AddressPool
