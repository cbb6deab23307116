import AddressPool.Proofs.Setup
import AddressPool.Text.Bytes
import Mathlib.Tactic

/-!
# Setups that make sense

Whatever bytes and arguments a setup is made from, its ranges are complete and lie in their subnets,
no address is in two of them, within a set or across sets, there are as few sets as the version of
the format can carry, and no address that is asked for stands for another one
(`Setup.sound_of_load`).
-/

namespace AddressPool

/-! ### Ranges and sets -/

namespace Range

/-- An address is given, and it is in the subnet of the range. -/
def Has (r : Range) (a? : Option Address) : Prop :=
  ∃ a, a? = some a ∧ a.family = r.subnet.family ∧ r.subnet.contains a = true

/-- Nothing is left open in a range, and all of it fits. -/
structure Complete (r : Range) : Prop where
  start : r.Has r.start?
  last : r.Has r.last?
  gateway : r.Has r.gateway?
  start_le_last : r.start ≤ r.last
  last_lt_broadcast : ∀ b, r.subnet.broadcast? = some b → r.last < b

theorem has_of_contains {r : Range} {a : Address} {a? : Option Address} (ha : a? = some a)
    (h : r.subnet.contains a = true) : r.Has a? :=
  ⟨a, ha, (Network.contains_iff.mp h).1, h⟩

theorem Sound.complete {r : Range} (hr : r.Sound) : r.Complete where
  start := has_of_contains hr.start_given hr.start_mem
  last := has_of_contains hr.last_given hr.last_mem
  gateway := has_of_contains hr.gateway_given hr.gateway_mem
  start_le_last := hr.start_le_last
  last_lt_broadcast _ := hr.last_lt_broadcast

end Range

namespace RangeSet

/-- No address lies between the bounds of two of the ranges. -/
def Apart (rs : List Range) : Prop :=
  rs.Pairwise fun r t => ∀ a, r.Spans a → ¬ t.Spans a

/-- No address is contained in two of the ranges. -/
def ContainOnce (rs : List Range) : Prop :=
  rs.Pairwise fun r t => ∀ a, r.contains a = true → ¬ t.contains a = true

theorem Sound.apart {s : RangeSet} (hs : s.Sound) : Apart s.members :=
  hs.disjoint.imp_of_mem fun hr ht hover _ =>
    (hs.member_sound _ hr).not_spans_of_not_overlaps (hs.member_sound _ ht) hover

theorem apart_flatMap {sets : List RangeSet} (hsound : ∀ s ∈ sets, s.Sound)
    (hdisjoint : sets.Pairwise fun s t => s.overlaps t = false) :
    Apart (sets.flatMap RangeSet.members) := by
  rw [Apart, List.pairwise_flatMap]
  refine ⟨fun s hs => (hsound s hs).apart, hdisjoint.imp_of_mem ?_⟩
  intro s t hs ht hover r hr u hu a hra hua
  exact (hsound s hs).not_spans_of_not_overlaps (hsound t ht) hover ⟨r, hr, hra⟩ ⟨u, hu, hua⟩

theorem containOnce_of_apart {rs : List Range} (hsound : ∀ r ∈ rs, r.Sound) (h : Apart rs) :
    ContainOnce rs :=
  List.Pairwise.imp_of_mem (fun hr ht hapart _ hra hta =>
    hapart _ ((hsound _ hr).spans_of_contains hra) ((hsound _ ht).spans_of_contains hta)) h

theorem Sound.family?_eq {s : RangeSet} (hs : s.Sound) :
    ∃ f, s.family? = some f ∧ ∀ r ∈ s.members, r.subnet.family = f := by
  obtain ⟨first, rest, hmembers⟩ := List.exists_cons_of_length_pos hs.length_pos
  have hfirst : first ∈ s.members := hmembers ▸ List.mem_cons_self
  refine ⟨first.start.family, by rw [family?, hmembers]; rfl, fun r hr => ?_⟩
  rw [← (hs.member_sound r hr).family_start]
  exact hs.one_family r hr first hfirst

end RangeSet

/-! ### Setups -/

namespace Setup

/-- A setup makes sense: it has sets of complete ranges, each of one family and no two of them with
an address in common, no more of a family than its version can carry, and what is asked for stands
for no other address. -/
structure Sound (s : Setup) : Prop where
  sets_ne_nil : s.sets ≠ []
  complete : ∀ set ∈ s.sets, ∀ r ∈ set.members, r.Complete
  one_family : ∀ set ∈ s.sets, ∃ f, set.family? = some f ∧ ∀ r ∈ set.members, r.subnet.family = f
  apart : RangeSet.Apart (s.sets.flatMap RangeSet.members)
  containOnce : RangeSet.ContainOnce (s.sets.flatMap RangeSet.members)
  single : s.version ∈ ["", "0.1.0", "0.2.0"] →
    ∀ f : Family, s.sets.countP (fun set => set.family? == some f) ≤ 1
  requested : ∀ a ∈ s.requested, a.mapped? = none

theorem disjoint_of_firstOverlap? {sets : List RangeSet} (h : firstOverlap? sets = none) :
    sets.Pairwise fun s t => s.overlaps t = false := by
  apply RangeSet.pairwise_of_pairs
  intro i j s t hij hs ht
  rw [firstOverlap?, List.find?_eq_none] at h
  simpa [hs, ht] using h (i, j) hij

theorem countP_family_le {version : String} {sets : List RangeSet}
    (h : tooMany version sets = false) (hversion : version ∈ singleAddressVersions) (f : Family) :
    sets.countP (fun set => set.family? == some f) ≤ 1 := by
  have hcontains : singleAddressVersions.contains version = true := by simpa using hversion
  have hfew : sets.countP (·.isV4) ≤ 1 ∧ sets.length - sets.countP (·.isV4) ≤ 1 := by
    simpa [tooMany, hversion] using h
  cases f with
  | v4 => exact hfew.1
  | v6 =>
    have hlong : sets.countP (fun set => set.family? == some .v6) ≤
        sets.countP (fun set => !set.isV4) := by
      apply List.countP_mono_left
      intro set _ hset
      rw [RangeSet.isV4, beq_iff_eq.mp hset]
      rfl
    have hlength := List.length_eq_countP_add_countP (fun set : RangeSet => set.isV4) (l := sets)
    simp only [Bool.not_eq_true, Bool.decide_eq_false] at hlength
    omega

/-! ### Addresses that are asked for -/

theorem mapped?_of_read? {text : String} {a : Address} (h : Address.read? text = some a) :
    a.mapped? = none := by
  obtain ⟨b, -, rfl⟩ := Option.map_eq_some_iff.mp h
  exact b.mapped?_canonical

theorem mapped?_of_add {args args' : Arguments} {pair : List Char}
    (h : ∀ a, args.address? = some a → a.mapped? = none) (hadd : args.add pair = .ok args') :
    ∀ a, args'.address? = some a → a.mapped? = none := by
  rw [Arguments.add] at hadd
  split at hadd
  · cases hadd
  · dsimp only at hadd
    split_ifs at hadd
    · split at hadd
      · cases hadd
        exact h
      · cases hadd
    · split at hadd
      · rename_i b hread
        cases hadd
        rintro _ ⟨⟩
        exact mapped?_of_read? hread
      · cases hadd
    · cases hadd
      exact h

theorem mapped?_of_addAll {args args' : Arguments} {pairs : List (List Char)}
    (h : ∀ a, args.address? = some a → a.mapped? = none) (hadd : args.addAll pairs = .ok args') :
    ∀ a, args'.address? = some a → a.mapped? = none := by
  induction pairs generalizing args with
  | nil =>
    cases hadd
    exact h
  | cons pair pairs ih =>
    obtain ⟨args₁, hpair, hpairs⟩ := bind_eq_ok_iff.mp hadd
    exact ih (mapped?_of_add h hpair) hpairs

theorem mapped?_of_arguments {text : String} {first? : Option Address}
    (h : Arguments.requested text = .ok first?) : ∀ a ∈ first?.toList, a.mapped? = none := by
  simp only [Option.mem_toList]
  rw [Arguments.requested] at h
  split_ifs at h
  · cases h
    simp
  · split at h
    · cases h
    · rename_i args hargs
      split_ifs at h
      cases h
      exact mapped?_of_addAll (by simp) hargs

theorem mapped?_of_addresses {texts : List String} {as : List Address}
    (h : addresses texts = .ok as) : ∀ a ∈ as, a.mapped? = none := by
  induction texts generalizing as with
  | nil =>
    cases h
    simp
  | cons text texts ih =>
    rw [addresses] at h
    split at h
    · cases h
    · rename_i a hread
      obtain ⟨rest, hrest, has⟩ := bind_eq_ok_iff.mp h
      cases has
      exact List.forall_mem_cons.mpr ⟨mapped?_of_read? hread, ih hrest⟩

/-! ### All checks together -/

theorem sound_of_ofConfig {config : Config} {arguments : String} {s : Setup}
    (h : ofConfig config arguments = .ok s) : s.Sound := by
  obtain ⟨part, first?, others, -, hfirst, hothers, hnonempty, hsets, hfew, hdisjoint, hs⟩ :=
    ofConfig_ok h
  have hsound : ∀ set ∈ s.sets, set.Sound :=
    fun set hset => (canonicalized_of_canonicalSets hsets set hset).sound
  have hmembers : ∀ r ∈ s.sets.flatMap RangeSet.members, r.Sound := by
    intro r hr
    obtain ⟨set, hset, hmem⟩ := List.mem_flatMap.mp hr
    exact (hsound set hset).member_sound r hmem
  have hapart := RangeSet.apart_flatMap hsound (disjoint_of_firstOverlap? hdisjoint)
  have hversion : s.version = config.version := by rw [hs]
  have hrequested : s.requested = first?.toList ++ others := by rw [hs]
  exact {
    sets_ne_nil := by
      rw [← List.length_pos_iff, length_canonicalSets hsets]
      exact List.length_pos_iff.mpr hnonempty
    complete := fun set hset r hr => ((hsound set hset).member_sound r hr).complete
    one_family := fun set hset => (hsound set hset).family?_eq
    apart := hapart
    containOnce := RangeSet.containOnce_of_apart hmembers hapart
    single := fun hsingle => countP_family_le hfew (hversion ▸ hsingle)
    requested := by
      rw [hrequested, List.forall_mem_append]
      exact ⟨mapped?_of_arguments hfirst, mapped?_of_addresses hothers⟩ }

/-- **Whatever a setup is made from, it makes sense.** -/
theorem sound_of_load {bytes : Json.Bytes} {arguments : String} {s : Setup}
    (h : load bytes arguments = .ok s) : s.Sound := by
  rw [load] at h
  split at h
  · cases h
  · exact sound_of_ofConfig h

/-- A configuration with a set of each family; the second one goes through the addresses that stand
for others. -/
def twoSets : Json.Bytes :=
  bytesOf ("\x7b\"cniVersion\":\"0.2.0\",\"name\":\"n\",\"ipam\":\x7b" ++
    "\"type\":\"host-local\",\"ranges\":[[\x7b\"subnet\":\"10.1.2.0/24\"\x7d]," ++
    "[\x7b\"subnet\":\"::/64\",\"rangeStart\":\"::fffe:ffff:ffff\"\x7d]]\x7d\x7d")

theorem sound_of_load_twoSets : ∃ s, load twoSets "IP=::ffff:10.1.2.9" = .ok s ∧
    s.sets.length = 2 ∧ s.requested.length = 1 ∧ s.Sound := by
  have hcounts : (load twoSets "IP=::ffff:10.1.2.9").toOption.map
      (fun s => (s.sets.length, s.requested.length)) = some (2, 1) := by
    decide +kernel
  obtain ⟨s, hload, hcounts⟩ := exists_ok_of_toOption hcounts
  obtain ⟨hsets, hrequested⟩ := Prod.mk.inj hcounts
  exact ⟨s, hload, hsets, hrequested, sound_of_load hload⟩

end Setup

end AddressPool
