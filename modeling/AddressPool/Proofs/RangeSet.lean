import AddressPool.Proofs.Range
import AddressPool.RangeSet
import Mathlib.Tactic

/-!
# Sets of ranges in canonical form

`Canonicalized.sound`: a set that was put into canonical form is not empty, its members are sound
and of one family, and no two of them overlap.  So an address belongs to at most one member
(`Sound.member_unique`), and to at most one of two sets that do not overlap
(`Sound.not_spans_of_not_overlaps`).
-/

namespace AddressPool

namespace RangeSet

/-- The set is what some set was put into canonical form as. -/
def Canonicalized (s : RangeSet) : Prop :=
  ∃ given : RangeSet, given.canonical = .ok s

/-- What holds of a set in canonical form: there are members, all sound and of one family, and no
two of them overlap. -/
structure Sound (s : RangeSet) : Prop where
  length_pos : 0 < s.length
  member_sound : ∀ r ∈ s.members, r.Sound
  one_family : ∀ r ∈ s.members, ∀ t ∈ s.members, r.start.family = t.start.family
  disjoint : s.members.Pairwise fun r t => r.overlaps t = false

/-- An address lies between the bounds of a member. -/
def Spans (s : RangeSet) (a : Address) : Prop :=
  ∃ r ∈ s.members, r.Spans a

theorem member_mem (s : RangeSet) (i : Fin s.length) : s.member i ∈ s.members :=
  List.get_mem s.members i

/-! ### From the checks to what they establish -/

theorem exists_form_of_mem {rs rs' : List Range} (h : List.Forall₂ Range.HasForm rs rs')
    {r' : Range} (hr' : r' ∈ rs') : ∃ r : Range, r.HasForm r' := by
  obtain ⟨i, hi, rfl⟩ := List.mem_iff_getElem.mp hr'
  exact ⟨_, h.get (h.length_eq ▸ hi) hi⟩

theorem sound_of_forms {rs rs' : List Range} (h : List.Forall₂ Range.HasForm rs rs') :
    ∀ r' ∈ rs', r'.Sound := by
  intro r' hr'
  obtain ⟨r, hform⟩ := exists_form_of_mem h hr'
  exact Range.sound_of_canonicalize hform

theorem canonicalizeMembers_of_forms {rs rs' : List Range} (h : List.Forall₂ Range.HasForm rs rs') :
    canonicalizeMembers rs = (.ok (), rs') := by
  induction h with
  | nil => rfl
  | cons hr _ ih =>
    rw [canonicalizeMembers, hr]
    dsimp only
    rw [ih]

theorem canonicalizeMembers_of_refused {before after : List Range} {r : Range} {e : Error}
    (hbefore : ∀ t ∈ before, ∃ t', t.HasForm t') (hr : r.canonicalize.1 = .error e) :
    (canonicalizeMembers (before ++ r :: after)).1 = .error e := by
  induction before with
  | nil =>
    rw [List.nil_append, canonicalizeMembers]
    split
    · rename_i hrefused
      rw [hrefused] at hr
      exact hr
    · rename_i haccepted
      rw [haccepted] at hr
      cases hr
  | cons t before ih =>
    obtain ⟨⟨t', ht⟩, hbefore⟩ := List.forall_mem_cons.mp hbefore
    rw [List.cons_append, canonicalizeMembers, ht]
    exact ih hbefore

theorem forms_or_refused (rs : List Range) :
    (∃ rs', List.Forall₂ Range.HasForm rs rs') ∨
      ∃ before r after e, rs = before ++ r :: after ∧ (∀ t ∈ before, ∃ t', t.HasForm t') ∧
        r.canonicalize.1 = .error e := by
  induction rs with
  | nil => exact Or.inl ⟨[], .nil⟩
  | cons r rs ih =>
    rcases hr : r.canonicalize with ⟨e | _, r'⟩
    · exact Or.inr ⟨[], r, rs, e, rfl, by simp, by rw [hr]⟩
    · rcases ih with ⟨rs', hforms⟩ | ⟨before, t, after, e, rfl, hbefore, ht⟩
      · exact Or.inl ⟨r' :: rs', .cons hr hforms⟩
      · have hbefore := List.forall_mem_cons.mpr ⟨⟨r', hr⟩, hbefore⟩
        exact Or.inr ⟨r :: before, t, after, e, rfl, hbefore, ht⟩

theorem canonical_of_empty {s : RangeSet} (h : s.members = []) :
    s.canonical = .error .emptySet := by
  rw [canonical, canonicalize, h]
  rfl

theorem canonical_of_refused {s : RangeSet} {before after : List Range} {r : Range} {e : Error}
    (hmembers : s.members = before ++ r :: after) (hbefore : ∀ t ∈ before, ∃ t', t.HasForm t')
    (hr : r.canonicalize.1 = .error e) : s.canonical = .error e := by
  have hverdict : (canonicalizeMembers (before ++ r :: after)).1 = .error e :=
    canonicalizeMembers_of_refused hbefore hr
  rw [← hmembers] at hverdict
  rw [canonical, canonicalize, if_neg (by simp [hmembers])]
  dsimp only
  rw [hverdict]

theorem canonical_of_forms {s : RangeSet} {rs : List Range} (hne : s.members ≠ [])
    (hforms : List.Forall₂ Range.HasForm s.members rs) :
    s.canonical =
      if (mk rs).oneFamily then
        match (mk rs).firstOverlap? with
        | some e => .error e
        | none => .ok ⟨rs⟩
      else .error .mixedFamilies := by
  rw [canonical, canonicalize, if_neg (by simpa using hne), canonicalizeMembers_of_forms hforms]
  dsimp only
  cases (mk rs).oneFamily
  · rfl
  · cases (mk rs).firstOverlap? <;> rfl

theorem forms_of_canonical {given s : RangeSet} (h : given.canonical = .ok s) :
    given.members ≠ [] ∧ List.Forall₂ Range.HasForm given.members s.members ∧
      s.oneFamily = true ∧ s.firstOverlap? = none := by
  by_cases hne : given.members = []
  · rw [canonical_of_empty hne] at h
    cases h
  rcases forms_or_refused given.members with ⟨rs, hforms⟩ | ⟨_, r, _, e, hmembers, hbefore, hr⟩
  · rw [canonical_of_forms hne hforms] at h
    split_ifs at h with hfamily
    split at h
    · cases h
    · cases h
      exact ⟨hne, hforms, hfamily, ‹_›⟩
  · rw [canonical_of_refused hmembers hbefore hr] at h
    cases h

theorem oneFamily_iff {s : RangeSet} : s.oneFamily = true ↔
    ∀ r ∈ s.members, ∀ t ∈ s.members, r.start.family = t.start.family := by
  rw [oneFamily, List.all_eq_true, family?]
  simp only [beq_iff_eq]
  constructor
  · intro h r hr t ht
    exact Option.some.inj ((h r hr).trans (h t ht).symm)
  · intro h r hr
    obtain ⟨first, rest, hmembers⟩ := List.exists_cons_of_ne_nil (List.ne_nil_of_mem hr)
    rw [hmembers, List.head?_cons, Option.map_some, h r hr first (hmembers ▸ List.mem_cons_self)]

theorem mem_pairs {n i j : Nat} : (i, j) ∈ pairs n ↔ i < j ∧ j < n := by
  simp only [pairs, List.mem_flatMap, List.mem_range, List.mem_map, List.mem_range'_1,
    Prod.mk.injEq]
  constructor
  · rintro ⟨i', hi, j', hj, rfl, rfl⟩
    omega
  · rintro ⟨hij, hj⟩
    exact ⟨i, by omega, j, by omega, rfl, rfl⟩

theorem pairwise_of_pairs {α : Type} {R : α → α → Prop} {xs : List α}
    (h : ∀ i j x y, (i, j) ∈ pairs xs.length → xs[i]? = some x → xs[j]? = some y → R x y) :
    xs.Pairwise R := by
  rw [List.pairwise_iff_getElem]
  intro i j hi hj hij
  exact h i j _ _ (mem_pairs.mpr ⟨hij, hj⟩) (List.getElem?_eq_getElem hi)
    (List.getElem?_eq_getElem hj)

theorem disjoint_of_firstOverlap? {s : RangeSet} (h : s.firstOverlap? = none) :
    s.members.Pairwise fun r t => r.overlaps t = false := by
  apply pairwise_of_pairs
  intro i j r t hij hr ht
  rw [firstOverlap?, List.findSome?_eq_none_iff] at h
  have hpair := h (i, j) hij
  simp only [hr, ht] at hpair
  split_ifs at hpair with hover
  simpa using hover

/-- **A set that was put into canonical form is sound.** -/
theorem Canonicalized.sound {s : RangeSet} (hs : s.Canonicalized) : s.Sound := by
  obtain ⟨given, hgiven⟩ := hs
  obtain ⟨hne, hforms, hfamily, hover⟩ := forms_of_canonical hgiven
  refine ⟨?_, sound_of_forms hforms, oneFamily_iff.mp hfamily, disjoint_of_firstOverlap? hover⟩
  rw [length, ← hforms.length_eq]
  exact List.length_pos_iff.mpr hne

/-! ### Which member an address belongs to -/

theorem find?_canonical (s : RangeSet) (a : Address) : s.find? a.canonical = s.find? a := by
  unfold find?
  rw [Address.canonical_canonical]

theorem lookup_eq_ok_iff {s : RangeSet} {a : Address} {i : Fin s.length} :
    s.lookup a = .ok i ↔ s.find? a = some i := by
  rw [lookup]
  cases s.find? a <;> simp

theorem contains_of_find? {s : RangeSet} {a : Address} {i : Fin s.length}
    (h : s.find? a = some i) : (s.member i).contains a.canonical = true := by
  have hfind : s.members.findFinIdx? (·.contains a.canonical) = some i := h
  exact (List.findFinIdx?_eq_some_iff.mp hfind).1

theorem contains_iff {s : RangeSet} {a : Address} :
    s.contains a = true ↔ ∃ r ∈ s.members, r.contains a.canonical = true := by
  have hsome : s.contains a = s.members.any (·.contains a.canonical) := List.isSome_findFinIdx?
  rw [hsome, List.any_eq_true]

namespace Sound

variable {s t : RangeSet} {a : Address}

theorem member (hs : s.Sound) (i : Fin s.length) : (s.member i).Sound :=
  hs.member_sound _ (s.member_mem i)

theorem spans_of_find? (hs : s.Sound) {i : Fin s.length} (h : s.find? a = some i) :
    (s.member i).Spans a.canonical := by
  have := (hs.member i).spans_of_contains (contains_of_find? h)
  rwa [Address.canonical_canonical] at this

theorem spans_of_contains (hs : s.Sound) (h : s.contains a = true) : s.Spans a.canonical := by
  obtain ⟨r, hr, hra⟩ := contains_iff.mp h
  have := (hs.member_sound r hr).spans_of_contains hra
  rw [Address.canonical_canonical] at this
  exact ⟨r, hr, this⟩

theorem member_unique (hs : s.Sound) {i j : Fin s.length} (hi : (s.member i).Spans a)
    (hj : (s.member j).Spans a) : i = j := by
  have hpair := List.pairwise_iff_getElem.mp hs.disjoint
  rcases lt_trichotomy i j with hij | hij | hij
  · exact absurd hj ((hs.member i).not_spans_of_not_overlaps (hs.member j)
      (hpair i j i.isLt j.isLt hij) hi)
  · exact hij
  · exact absurd hi ((hs.member j).not_spans_of_not_overlaps (hs.member i)
      (hpair j i j.isLt i.isLt hij) hj)

theorem not_spans_of_not_overlaps (hs : s.Sound) (ht : t.Sound) (hst : s.overlaps t = false)
    (has : s.Spans a) : ¬ t.Spans a := by
  rintro ⟨u, hu, hua⟩
  obtain ⟨r, hr, hra⟩ := has
  simp only [overlaps, List.any_eq_false, Bool.not_eq_true] at hst
  exact (hs.member_sound r hr).not_spans_of_not_overlaps (ht.member_sound u hu)
    (by simpa using hst r hr u hu) hra hua

end Sound

end RangeSet

end AddressPool
