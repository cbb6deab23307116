import AddressPool.Proofs.RangeSet
import Mathlib.Tactic

/-!
# The verdict on a set

A set is put into canonical form exactly if it has members, all of them have canonical forms, these
are of one family, and no two of them have an address between their bounds in common.  Otherwise the
error tells about the first of these that fails: about the first member that is refused, or the
first two members that meet, in lexicographic order (`RangeSet.canonical_eq_iff`).
-/

namespace AddressPool

namespace RangeSet

/-- The first two of some ranges that meet: no other pair that does comes before in lexicographic
order. -/
structure FirstMeeting (rs : List Range) (i j : Nat) (r t : Range) : Prop where
  lt : i < j
  first : rs[i]? = some r
  second : rs[j]? = some t
  meets : r.Meets t
  least : ∀ i' j' r' t', i' < j' → rs[i']? = some r' → rs[j']? = some t' → r'.Meets t' →
    i < i' ∨ i = i' ∧ j ≤ j'

/-- What a set comes to when it is put into canonical form: it has no members, or the first member
that is refused is told, then that there are both families, then the first two members that meet,
and otherwise it is accepted. -/
inductive Decided (s : RangeSet) : Except Error RangeSet → Prop
  | empty : s.members = [] → Decided s (.error .emptySet)
  | refused {before after : List Range} {r : Range} {e : Error} :
      s.members = before ++ r :: after → (∀ t ∈ before, ∃ t', t.HasForm t') →
      r.canonicalize.1 = .error e → Decided s (.error e)
  | mixed {rs : List Range} : List.Forall₂ Range.HasForm s.members rs →
      (∃ r ∈ rs, ∃ t ∈ rs, r.start.family ≠ t.start.family) → Decided s (.error .mixedFamilies)
  | meeting {rs : List Range} {i j : Nat} {r t : Range} :
      List.Forall₂ Range.HasForm s.members rs →
      (∀ r ∈ rs, ∀ t ∈ rs, r.start.family = t.start.family) → FirstMeeting rs i j r t →
      Decided s (.error (.overlap i j r.text t.text))
  | accepted {rs : List Range} : s.members ≠ [] → List.Forall₂ Range.HasForm s.members rs →
      (∀ r ∈ rs, ∀ t ∈ rs, r.start.family = t.start.family) →
      rs.Pairwise (fun r t => ¬ r.Meets t) → Decided s (.ok ⟨rs⟩)

/-! ### The first pair -/

theorem pairwise_pairs (n : Nat) : (pairs n).Pairwise (Prod.Lex (· < ·) (· < ·)) := by
  rw [pairs, List.pairwise_flatMap]
  refine ⟨fun i _ => ?_, List.pairwise_lt_range.imp fun hij p hp q hq => ?_⟩
  · rw [List.pairwise_map]
    exact (List.pairwise_lt_range' 1).imp fun hlt => Prod.Lex.right i hlt
  · obtain ⟨_, -, rfl⟩ := List.mem_map.mp hp
    obtain ⟨_, -, rfl⟩ := List.mem_map.mp hq
    exact Prod.Lex.left _ _ hij

theorem findSome?_eq_some_iff_of_pairwise {β : Type} {ps : List (Nat × Nat)}
    (hps : ps.Pairwise (Prod.Lex (· < ·) (· < ·))) {f : Nat × Nat → Option β} {b : β} :
    ps.findSome? f = some b ↔
      ∃ p ∈ ps, f p = some b ∧ ∀ q ∈ ps, Prod.Lex (· < ·) (· < ·) q p → f q = none := by
  rw [List.findSome?_eq_some_iff]
  constructor
  · rintro ⟨front, p, back, rfl, hp, hfront⟩
    refine ⟨p, by simp, hp, fun q hq hbefore => ?_⟩
    have hback := (List.pairwise_append.mp hps).2.1
    rw [Prod.lex_def] at hbefore
    rcases List.mem_append.mp hq with hq | hq
    · exact hfront q hq
    rcases List.mem_cons.mp hq with rfl | hq
    · omega
    · have hafter := Prod.lex_def.mp (List.rel_of_pairwise_cons hback hq)
      omega
  · rintro ⟨p, hmem, hp, hnone⟩
    obtain ⟨front, back, rfl⟩ := List.append_of_mem hmem
    refine ⟨front, p, back, rfl, hp, fun q hq => hnone q (by simp [hq]) ?_⟩
    exact (List.pairwise_append.mp hps).2.2 q hq p List.mem_cons_self

def overlapAt? (s : RangeSet) (p : Nat × Nat) : Option Error :=
  match s.members[p.1]?, s.members[p.2]? with
  | some r, some t => if r.overlaps t then some (.overlap p.1 p.2 r.text t.text) else none
  | _, _ => none

theorem firstOverlap?_eq (s : RangeSet) :
    s.firstOverlap? = (pairs s.length).findSome? s.overlapAt? := rfl

section Meetings

variable {s : RangeSet} (hsound : ∀ r ∈ s.members, r.Sound) {i j : Nat} {r t : Range} {e : Error}
include hsound

theorem overlapAt?_eq_some_iff : s.overlapAt? (i, j) = some e ↔
    ∃ r t, s.members[i]? = some r ∧ s.members[j]? = some t ∧ r.Meets t ∧
      e = .overlap i j r.text t.text := by
  rw [overlapAt?]
  dsimp only
  cases hi : s.members[i]? with
  | none => simp
  | some r =>
    cases hj : s.members[j]? with
    | none => simp
    | some t =>
      have hover := (hsound r (List.mem_of_getElem? hi)).overlaps_iff
        (hsound t (List.mem_of_getElem? hj))
      by_cases hmeets : r.Meets t
      · simp [hover.mpr hmeets, hmeets, eq_comm]
      · simp [mt hover.mp hmeets, hmeets]

theorem overlapAt?_eq_none_iff (hi : s.members[i]? = some r) (hj : s.members[j]? = some t) :
    s.overlapAt? (i, j) = none ↔ ¬ r.Meets t := by
  have hover := (hsound r (List.mem_of_getElem? hi)).overlaps_iff
    (hsound t (List.mem_of_getElem? hj))
  simp [overlapAt?, hi, hj, ← hover]

/-- **The first overlap of a set is that of the first two members that meet.** -/
theorem firstOverlap?_eq_some_iff : s.firstOverlap? = some e ↔
    ∃ i j r t, FirstMeeting s.members i j r t ∧ e = .overlap i j r.text t.text := by
  rw [firstOverlap?_eq, findSome?_eq_some_iff_of_pairwise (pairwise_pairs _)]
  constructor
  · rintro ⟨⟨i, j⟩, hmem, hsome, hnone⟩
    obtain ⟨r, t, hi, hj, hmeets, rfl⟩ := (overlapAt?_eq_some_iff hsound).mp hsome
    refine ⟨i, j, r, t, ⟨(mem_pairs.mp hmem).1, hi, hj, hmeets, ?_⟩, rfl⟩
    intro i' j' r' t' hlt hi' hj' hmeets'
    by_contra hbefore
    refine (overlapAt?_eq_none_iff hsound hi' hj').mp (hnone (i', j') ?_ ?_) hmeets'
    · exact mem_pairs.mpr ⟨hlt, (List.getElem?_eq_some_iff.mp hj').1⟩
    · rw [Prod.lex_def]
      dsimp only
      omega
  · rintro ⟨i, j, r, t, ⟨hlt, hi, hj, hmeets, hleast⟩, rfl⟩
    refine ⟨(i, j), mem_pairs.mpr ⟨hlt, (List.getElem?_eq_some_iff.mp hj).1⟩,
      (overlapAt?_eq_some_iff hsound).mpr ⟨r, t, hi, hj, hmeets, rfl⟩, ?_⟩
    rintro ⟨i', j'⟩ hmem hbefore
    rw [Option.eq_none_iff_forall_ne_some]
    intro e he
    obtain ⟨r', t', hi', hj', hmeets', -⟩ := (overlapAt?_eq_some_iff hsound).mp he
    have hlater := hleast i' j' r' t' (mem_pairs.mp hmem).1 hi' hj' hmeets'
    rw [Prod.lex_def] at hbefore
    dsimp only at hbefore
    omega

theorem firstOverlap?_eq_none_iff : s.firstOverlap? = none ↔
    s.members.Pairwise fun r t => ¬ r.Meets t := by
  constructor
  · intro hnone
    refine (disjoint_of_firstOverlap? hnone).imp_of_mem fun hr ht hover hmeets => ?_
    rw [((hsound _ hr).overlaps_iff (hsound _ ht)).mpr hmeets] at hover
    cases hover
  · intro hapart
    rw [Option.eq_none_iff_forall_ne_some]
    intro e he
    obtain ⟨i, j, r, t, ⟨hlt, hi, hj, hmeets, -⟩, -⟩ := (firstOverlap?_eq_some_iff hsound).mp he
    obtain ⟨hi', rfl⟩ := List.getElem?_eq_some_iff.mp hi
    obtain ⟨hj', rfl⟩ := List.getElem?_eq_some_iff.mp hj
    exact List.pairwise_iff_getElem.mp hapart i j hi' hj' hlt hmeets

end Meetings

/-! ### The verdict -/

variable {s : RangeSet} {v : Except Error RangeSet}

theorem canonical_of_decided (h : s.Decided v) : s.canonical = v := by
  cases h with
  | empty hempty => exact canonical_of_empty hempty
  | refused hmembers hbefore hr => exact canonical_of_refused hmembers hbefore hr
  | @mixed rs hforms hfamilies =>
    obtain ⟨r, hr, t, ht, hne⟩ := hfamilies
    have hmixed : ¬ (mk rs).oneFamily = true := fun hone => hne (oneFamily_iff.mp hone r hr t ht)
    have hmembers : s.members ≠ [] := by
      rw [← List.length_pos_iff, hforms.length_eq]
      exact List.length_pos_of_mem hr
    rw [canonical_of_forms hmembers hforms, if_neg hmixed]
  | @meeting rs i j r t hforms hfamily hmeeting =>
    have hmembers : s.members ≠ [] := by
      rw [← List.length_pos_iff, hforms.length_eq]
      exact List.length_pos_of_mem (List.mem_of_getElem? hmeeting.first)
    have hover : (mk rs).firstOverlap? = some (.overlap i j r.text t.text) :=
      (firstOverlap?_eq_some_iff (s := ⟨rs⟩) (sound_of_forms hforms)).mpr
        ⟨i, j, r, t, hmeeting, rfl⟩
    rw [canonical_of_forms hmembers hforms, if_pos (oneFamily_iff.mpr hfamily), hover]
  | @accepted rs hmembers hforms hfamily hapart =>
    have hover : (mk rs).firstOverlap? = none :=
      (firstOverlap?_eq_none_iff (s := ⟨rs⟩) (sound_of_forms hforms)).mpr hapart
    rw [canonical_of_forms hmembers hforms, if_pos (oneFamily_iff.mpr hfamily), hover]

theorem decided_canonical (s : RangeSet) : s.Decided s.canonical := by
  by_cases hmembers : s.members = []
  · rw [canonical_of_empty hmembers]
    exact .empty hmembers
  rcases forms_or_refused s.members with ⟨rs, hforms⟩ | ⟨_, r, _, e, hsplit, hbefore, hr⟩
  · have hsound := sound_of_forms hforms
    rw [canonical_of_forms hmembers hforms]
    split_ifs with hone
    · have hfamily := oneFamily_iff.mp hone
      cases hover : (mk rs).firstOverlap? with
      | none =>
        exact .accepted hmembers hforms hfamily
          ((firstOverlap?_eq_none_iff (s := ⟨rs⟩) hsound).mp hover)
      | some e =>
        obtain ⟨i, j, r, t, hmeeting, rfl⟩ :=
          (firstOverlap?_eq_some_iff (s := ⟨rs⟩) hsound).mp hover
        exact .meeting hforms hfamily hmeeting
    · rw [oneFamily_iff] at hone
      push Not at hone
      exact .mixed hforms hone
  · rw [canonical_of_refused hsplit hbefore hr]
    exact .refused hsplit hbefore hr

/-- **A set comes to what is decided about it, where ranges in canonical form overlap exactly if
they are of one family and have an address between their bounds in common.** -/
theorem canonical_eq_iff (s : RangeSet) :
    (∀ v, s.canonical = v ↔ s.Decided v) ∧
      ∀ r r' t t' : Range, r.HasForm r' → t.HasForm t' →
        (r'.overlaps t' = true ↔ r'.start.family = t'.start.family ∧ r'.Meets t') := by
  constructor
  · intro v
    exact ⟨fun h => h ▸ s.decided_canonical, canonical_of_decided⟩
  · intro r r' t t' hr ht
    have hr' := Range.sound_of_canonicalize hr
    have ht' := Range.sound_of_canonicalize ht
    rw [hr'.overlaps_iff ht']
    exact ⟨fun h => ⟨hr'.family_eq_of_meets ht' h, h⟩, And.right⟩

/-- A set of which the first and the third member meet in one address, and the second and the fourth
in more. -/
def touching : RangeSet :=
  ⟨[.stretch 0 10 20, .stretch 1 10 20, .stretch 0 20 30, .stretch 1 15 16]⟩

/-- A range within the one that ends with the block of addresses that stand for others. -/
def insideUpToBlock : Range :=
  { Range.upToBlock with start? := some (.ofNat .v6 (Address.mappedBase - 1)) }

theorem canonical_eq_iff_touching :
    touching.canonical =
      .error (.overlap 0 2 (Range.stretch 0 10 20).text (Range.stretch 0 20 30).text) ∧
    touching.Decided
      (.error (.overlap 0 2 (Range.stretch 0 10 20).text (Range.stretch 0 20 30).text)) ∧
    Range.upToBlock.HasForm Range.upToBlock.completed ∧
    insideUpToBlock.HasForm insideUpToBlock.completed ∧
    (Range.upToBlock.completed.overlaps insideUpToBlock.completed = true ↔
      Range.upToBlock.completed.start.family = insideUpToBlock.completed.start.family ∧
        Range.upToBlock.completed.Meets insideUpToBlock.completed) := by
  have hverdict : touching.canonical =
      .error (.overlap 0 2 (Range.stretch 0 10 20).text (Range.stretch 0 20 30).text) := rfl
  have houter : Range.upToBlock.HasForm Range.upToBlock.completed := rfl
  have hinner : insideUpToBlock.HasForm insideUpToBlock.completed := rfl
  exact ⟨hverdict, ((canonical_eq_iff touching).1 _).mp hverdict, houter, hinner,
    (canonical_eq_iff touching).2 _ _ _ _ houter hinner⟩

end RangeSet

end AddressPool
