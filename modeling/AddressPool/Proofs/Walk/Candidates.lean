import AddressPool.Proofs.RangeSet
import AddressPool.Walk.Candidates
import Mathlib.Data.List.Cycle
import Mathlib.Data.List.Range
import Mathlib.Tactic

/-!
# The positions of a set

The positions of a sound set are its members' addresses (`Sound.mem_positions`), each once and in
order (`Sound.positions_sorted`), and `Position.next` leads from each to the one behind it and from
the last back to the first (`Sound.positions_cycle`).  The positions after an address are the same
list, begun in another place (`Sound.positionsAfter_eq`), and the candidates are what is left of
either without the gateways, of which a member has at most one.
-/

namespace AddressPool

namespace Range.Sound

variable {r : Range}

theorem family_last_eq (hr : r.Sound) : r.last.family = r.start.family := by
  rw [hr.family_last, hr.family_start]

theorem value_le (hr : r.Sound) : r.start.value ≤ r.last.value :=
  (Address.le_iff_of_family_eq hr.family_last_eq.symm).mp hr.start_le_last

theorem last_value_lt (hr : r.Sound) : r.last.value < r.start.family.size :=
  hr.family_last_eq ▸ r.last.value_lt

theorem spans_iff (hr : r.Sound) {a : Address} :
    r.Spans a ↔ a.family = r.start.family ∧ r.start.value ≤ a.value ∧ a.value ≤ r.last.value := by
  constructor
  · rintro ⟨hlow, hhigh⟩
    have hfamily : a.family = r.start.family :=
      Address.family_eq_of_between hr.family_last_eq.symm hlow hhigh
    exact ⟨hfamily, (Address.le_iff_of_family_eq hfamily.symm).mp hlow,
      (Address.le_iff_of_family_eq (hfamily.trans hr.family_last_eq.symm)).mp hhigh⟩
  · rintro ⟨hfamily, hlow, hhigh⟩
    exact ⟨(Address.le_iff_of_family_eq hfamily.symm).mpr hlow,
      (Address.le_iff_of_family_eq (hfamily.trans hr.family_last_eq.symm)).mpr hhigh⟩

end Range.Sound

namespace Position

variable {s : RangeSet}

/-- One position comes before another: in an earlier member, or in the same one and lower. -/
def Before (p q : Position s) : Prop :=
  p.member < q.member ∨ p.member = q.member ∧ p.address < q.address

theorem Before.ne {p q : Position s} (h : p.Before q) : p ≠ q := by
  rintro rfl
  rcases h with h | ⟨-, h⟩
  · exact absurd h (lt_irrefl _)
  · exact absurd h (Nat.lt_irrefl _)

theorem Before.not_before {p q : Position s} (h : p.Before q) : ¬ q.Before p := by
  rintro (h' | ⟨hmember, h'⟩)
  · rcases h with h | ⟨hmember, -⟩
    · exact absurd h' (not_lt.mpr (le_of_lt h))
    · exact absurd (hmember ▸ h') (lt_irrefl _)
  · rcases h with h | ⟨-, h⟩
    · exact absurd (hmember ▸ h) (lt_irrefl _)
    · exact absurd h (Nat.lt_asymm h')

theorem upTo_iff (here p : Position s) :
    (p.member < here.member || (p.member == here.member && p.address ≤ here.address)) = true ↔
      ¬ here.Before p := by
  simp only [Before, Bool.or_eq_true, Bool.and_eq_true, decide_eq_true_eq, beq_iff_eq, not_or,
    not_and, Address.not_lt, not_lt]
  constructor
  · rintro (hlt | ⟨hmember, hle⟩)
    · exact ⟨le_of_lt hlt, fun hmember => absurd hlt (hmember ▸ lt_irrefl _)⟩
    · exact ⟨le_of_eq hmember, fun _ => hle⟩
  · rintro ⟨hmember, hle⟩
    rcases lt_or_eq_of_le hmember with hlt | heq
    · exact Or.inl hlt
    · exact Or.inr ⟨heq, hle heq.symm⟩

/-- The position lies between the bounds of its member. -/
def Spanned (p : Position s) : Prop :=
  p.range.Spans p.address

end Position

namespace RangeSet

open Position

def positionAt (s : RangeSet) (i : Fin s.length) (k : Nat) : Position s :=
  ⟨i, Address.ofNat (s.member i).start.family ((s.member i).start.value + k)⟩

def width (s : RangeSet) (i : Fin s.length) : Nat :=
  (s.member i).last.value + 1 - (s.member i).start.value

theorem memberPositions_eq (s : RangeSet) (i : Fin s.length) :
    s.memberPositions i = (List.range (s.width i)).map (s.positionAt i) := rfl

theorem filter_not_append_filter {α : Type} {q : α → Bool} {l₁ l₂ : List α}
    (h₁ : ∀ a ∈ l₁, q a = true) (h₂ : ∀ a ∈ l₂, q a = false) :
    (l₁ ++ l₂).filter (fun a => !q a) ++ (l₁ ++ l₂).filter q = l₂ ++ l₁ := by
  have hnot₁ : l₁.filter (fun a => !q a) = [] :=
    List.filter_eq_nil_iff.mpr fun a ha => by simp [h₁ a ha]
  have hnot₂ : l₂.filter (fun a => !q a) = l₂ :=
    List.filter_eq_self.mpr fun a ha => by simp [h₂ a ha]
  have hyes₂ : l₂.filter q = [] := List.filter_eq_nil_iff.mpr fun a ha => by simp [h₂ a ha]
  rw [List.filter_append, List.filter_append, hnot₁, hnot₂, List.filter_eq_self.mpr h₁, hyes₂,
    List.nil_append, List.append_nil]

theorem positionsAfter_of_find?_eq_none {s : RangeSet} {a : Address} (h : s.find? a = none) :
    s.positionsAfter (some a) = s.positions := by
  simp [positionsAfter, h]

namespace Sound

variable {s : RangeSet} {i : Fin s.length}

/-! ### The positions of a member -/

theorem width_pos (hs : s.Sound) (i : Fin s.length) : 0 < s.width i := by
  have := (hs.member i).value_le
  unfold width
  omega

theorem value_positionAt (hs : s.Sound) {k : Nat} (hk : k < s.width i) :
    (s.positionAt i k).address.value = (s.member i).start.value + k := by
  have := (hs.member i).last_value_lt
  unfold width at hk
  exact Address.value_ofNat (by omega)

theorem mem_memberPositions (hs : s.Sound) {p : Position s} :
    p ∈ s.memberPositions i ↔ p.member = i ∧ p.Spanned := by
  rw [memberPositions_eq, List.mem_map]
  constructor
  · rintro ⟨k, hk, rfl⟩
    have hvalue := hs.value_positionAt (List.mem_range.mp hk)
    rw [List.mem_range, width] at hk
    refine ⟨rfl, (hs.member i).spans_iff.mpr ⟨rfl, ?_, ?_⟩⟩ <;> omega
  · obtain ⟨j, a⟩ := p
    rintro ⟨rfl, hspans⟩
    obtain ⟨hfamily, hlow, hhigh⟩ := (hs.member j).spans_iff.mp hspans
    have hk : a.value - (s.member j).start.value < s.width j := by
      change (s.member j).start.value ≤ a.value at hlow
      change a.value ≤ (s.member j).last.value at hhigh
      unfold width
      omega
    refine ⟨_, List.mem_range.mpr hk, ?_⟩
    have hvalue := hs.value_positionAt hk
    rw [Nat.add_sub_cancel' hlow] at hvalue
    exact congrArg (Position.mk j) (Address.ext hfamily.symm hvalue)

theorem memberPositions_sorted (hs : s.Sound) (i : Fin s.length) :
    (s.memberPositions i).Pairwise Before := by
  rw [memberPositions_eq, List.pairwise_map]
  refine List.pairwise_lt_range.imp_of_mem ?_
  intro j k hj hk hlt
  have hfamily : (s.positionAt i j).address.family = (s.positionAt i k).address.family := rfl
  refine Or.inr ⟨rfl, (Address.lt_iff_of_family_eq hfamily).mpr ?_⟩
  rw [hs.value_positionAt (List.mem_range.mp hj), hs.value_positionAt (List.mem_range.mp hk)]
  omega

theorem positionAt_lt_last_iff (hs : s.Sound) {k : Nat} (hk : k < s.width i) :
    (s.positionAt i k).address < (s.member i).last ↔ k + 1 < s.width i := by
  have hfamily : (s.positionAt i k).address.family = (s.member i).last.family :=
    (hs.member i).family_last_eq.symm
  rw [Address.lt_iff_of_family_eq hfamily, hs.value_positionAt hk]
  unfold width
  omega

theorem next_positionAt (hs : s.Sound) {k : Nat} (hk : k + 1 < s.width i) :
    (s.positionAt i k).next = s.positionAt i (k + 1) := by
  have hvalue := hs.value_positionAt (Nat.lt_of_succ_lt hk)
  have hvalue' := hs.value_positionAt hk
  have hsize := (hs.member i).last_value_lt
  have hlast : (s.positionAt i k).address < (s.positionAt i k).range.last :=
    (hs.positionAt_lt_last_iff (Nat.lt_of_succ_lt hk)).mpr hk
  have hroom : (s.positionAt i k).address.value + 1 < (s.positionAt i k).address.family.size := by
    change _ < (s.member i).start.family.size
    unfold width at hk
    omega
  rw [next, Address.next?, dif_pos hroom]
  dsimp only
  rw [if_pos hlast]
  refine congrArg (Position.mk i) (Address.ext rfl ?_)
  change (s.positionAt i k).address.value + 1 = (s.positionAt i (k + 1)).address.value
  omega

theorem next_positionAt_last (hs : s.Sound) (i : Fin s.length) :
    (s.positionAt i (s.width i - 1)).next = startOf s (nextMember i) := by
  have hpos := hs.width_pos i
  have hlast : ¬ (s.positionAt i (s.width i - 1)).address < (s.member i).last := by
    rw [hs.positionAt_lt_last_iff (by omega)]
    omega
  rw [next]
  split
  · exact if_neg hlast
  · rfl

theorem positionAt_zero (hs : s.Sound) (i : Fin s.length) : s.positionAt i 0 = startOf s i :=
  congrArg (Position.mk i) (Address.ext rfl (hs.value_positionAt (hs.width_pos i)))

theorem memberPositions_chain (hs : s.Sound) (i : Fin s.length) :
    (s.memberPositions i).IsChain fun p q => p.next = q := by
  rw [memberPositions_eq, List.isChain_map, List.isChain_range]
  intro k hk
  exact hs.next_positionAt (by omega)

theorem head?_memberPositions (hs : s.Sound) (i : Fin s.length) :
    (s.memberPositions i).head? = some (startOf s i) := by
  rw [memberPositions_eq, List.head?_map, List.head?_range,
    if_neg (Nat.pos_iff_ne_zero.mp (hs.width_pos i)), Option.map_some, hs.positionAt_zero]

theorem getLast?_memberPositions (hs : s.Sound) (i : Fin s.length) :
    (s.memberPositions i).getLast? = some (s.positionAt i (s.width i - 1)) := by
  rw [memberPositions_eq, List.getLast?_map, List.getLast?_range,
    if_neg (Nat.pos_iff_ne_zero.mp (hs.width_pos i)), Option.map_some]

/-! ### The positions of a set -/

/-- **The positions of a set are the addresses between the bounds of its members.** -/
theorem mem_positions (hs : s.Sound) {p : Position s} : p ∈ s.positions ↔ p.Spanned := by
  rw [positions, List.mem_flatMap]
  constructor
  · rintro ⟨i, -, hp⟩
    exact (hs.mem_memberPositions.mp hp).2
  · intro hp
    exact ⟨p.member, List.mem_finRange _, hs.mem_memberPositions.mpr ⟨rfl, hp⟩⟩

theorem positions_sorted (hs : s.Sound) : s.positions.Pairwise Before := by
  rw [positions, List.pairwise_flatMap]
  refine ⟨fun i _ => hs.memberPositions_sorted i, ?_⟩
  refine (List.pairwise_lt_finRange s.length).imp ?_
  intro i j hij p hp q hq
  refine Or.inl ?_
  rw [(hs.mem_memberPositions.mp hp).1, (hs.mem_memberPositions.mp hq).1]
  exact hij

theorem positions_nodup (hs : s.Sound) : s.positions.Nodup :=
  hs.positions_sorted.imp Before.ne

theorem head?_positions (hs : s.Sound) :
    s.positions.head? = some (startOf s ⟨0, hs.length_pos⟩) := by
  have hranges : (List.finRange s.length).head? = some ⟨0, hs.length_pos⟩ := by
    rw [List.head?_eq_getElem?, List.getElem?_eq_getElem (by simpa using hs.length_pos),
      List.getElem_finRange]
    rfl
  obtain ⟨is, his⟩ := List.head?_eq_some_iff.mp hranges
  rw [positions, his, List.flatMap_cons, List.head?_append, hs.head?_memberPositions]
  rfl

theorem head?_follower (hs : s.Sound) {k : Nat} (hk : k < s.length) (l : List (Position s))
    (hl : ((List.finRange s.length).map s.memberPositions ++
      [[startOf s ⟨0, hs.length_pos⟩]])[k + 1]? = some l) :
    l.head? = some (startOf s (nextMember ⟨k, hk⟩)) := by
  rcases Nat.lt_or_ge (k + 1) s.length with hnext | hnext
  · rw [List.getElem?_append_left (by simpa using hnext), List.getElem?_map,
      List.getElem?_eq_getElem (by simpa using hnext), List.getElem_finRange, Option.map_some,
      Option.some.injEq] at hl
    rw [← hl, hs.head?_memberPositions]
    have : nextMember ⟨k, hk⟩ = ⟨k + 1, hnext⟩ := Fin.ext (Nat.mod_eq_of_lt hnext)
    rw [this]
    rfl
  · have hround : k + 1 = s.length := by omega
    rw [List.getElem?_append_right (by simpa using hnext)] at hl
    simp only [List.length_map, List.length_finRange, hround, Nat.sub_self,
      List.getElem?_cons_zero, Option.some.injEq] at hl
    have : nextMember ⟨k, hk⟩ = ⟨0, hs.length_pos⟩ :=
      Fin.ext (by simp only [nextMember, hround, Nat.mod_self])
    rw [← hl, this]
    rfl

/-- **Going from position to position leads round the set.** -/
theorem positions_cycle (hs : s.Sound) :
    Cycle.Chain (fun p q : Position s => p.next = q) s.positions := by
  obtain ⟨ps, hps⟩ := List.head?_eq_some_iff.mp hs.head?_positions
  rw [hps, Cycle.chain_coe_cons, ← List.cons_append, ← hps]
  have hflat : s.positions ++ [startOf s ⟨0, hs.length_pos⟩] =
      ((List.finRange s.length).map s.memberPositions ++
        [[startOf s ⟨0, hs.length_pos⟩]]).flatten := by
    rw [List.flatten_append, ← List.flatMap_def]
    rfl
  rw [hflat, List.isChain_flatten]
  · refine ⟨?_, ?_⟩
    · -- inside a member
      intro l hl
      rw [List.mem_append, List.mem_map, List.mem_singleton] at hl
      rcases hl with ⟨i, -, rfl⟩ | rfl
      · exact hs.memberPositions_chain i
      · exact .singleton _
    · -- from a member to the next
      rw [List.isChain_iff_getElem]
      intro k hk p hp q hq
      have hklen : k < s.length := by simpa using hk
      have hfollower := hs.head?_follower hklen _ (List.getElem?_eq_getElem hk)
      rw [List.getElem_append_left (by simpa using hklen), List.getElem_map,
        List.getElem_finRange, hs.getLast?_memberPositions, Option.mem_some_iff] at hp
      rw [hfollower, Option.mem_some_iff] at hq
      rw [← hp, ← hq]
      exact hs.next_positionAt_last ⟨k, hklen⟩
  · -- no member is without positions
    intro hnil
    rw [List.mem_append, List.mem_map, List.mem_singleton] at hnil
    rcases hnil with ⟨i, -, hi⟩ | hnil
    · have := hs.head?_memberPositions i
      rw [hi] at this
      cases this
    · cases hnil

theorem length_positions_le (hs : s.Sound) : s.positions.length ≤ s.positionBound := by
  have hwidth : ∀ n ∈ (List.finRange s.length).map fun i => (s.memberPositions i).length,
      n ≤ Family.v4.size + Family.v6.size := by
    intro n hn
    obtain ⟨i, -, rfl⟩ := List.mem_map.mp hn
    have hlast := (hs.member i).last_value_lt
    have hsize : (s.member i).start.family.size ≤ Family.v4.size + Family.v6.size := by
      cases (s.member i).start.family <;> omega
    rw [memberPositions_eq, List.length_map, List.length_range, width]
    omega
  have hsum := List.sum_le_card_nsmul _ _ hwidth
  rw [List.length_map, List.length_finRange, smul_eq_mul] at hsum
  rwa [positions, List.length_flatMap, positionBound]

/-! ### Beginning in another place -/

theorem spanned_of_find? (hs : s.Sound) {a : Address} (h : s.find? a = some i) :
    Spanned ⟨i, a.canonical⟩ :=
  hs.spans_of_find? h

theorem exists_positions_eq (hs : s.Sound) {a : Address} (h : s.find? a = some i) :
    ∃ before behind, s.positions = before ++ ⟨i, a.canonical⟩ :: behind ∧
      s.positionsAfter (some a) = behind ++ (before ++ [⟨i, a.canonical⟩]) := by
  obtain ⟨before, behind, hsplit⟩ :=
    List.append_of_mem (hs.mem_positions.mpr (hs.spanned_of_find? h))
  refine ⟨before, behind, hsplit, ?_⟩
  have hsorted := hs.positions_sorted
  rw [hsplit, List.pairwise_append, List.pairwise_cons] at hsorted
  obtain ⟨-, ⟨hbehind, -⟩, hbefore⟩ := hsorted
  have hupTo : ∀ p ∈ before ++ [⟨i, a.canonical⟩],
      (p.member < i || (p.member == i && p.address ≤ a.canonical)) = true := by
    intro p hp
    refine (upTo_iff ⟨i, a.canonical⟩ p).mpr ?_
    rcases List.mem_append.mp hp with hp | hp
    · exact (hbefore p hp _ List.mem_cons_self).not_before
    · rw [List.mem_singleton.mp hp]
      exact fun hself => hself.ne rfl
  have hnotUpTo : ∀ p ∈ behind,
      (p.member < i || (p.member == i && p.address ≤ a.canonical)) = false := by
    intro p hp
    rw [Bool.eq_false_iff]
    exact fun hupTo => (upTo_iff ⟨i, a.canonical⟩ p).mp hupTo (hbehind p hp)
  rw [List.append_cons] at hsplit
  simp only [positionsAfter, Option.bind_some, h, Option.map_some, hsplit]
  exact filter_not_append_filter hupTo hnotUpTo

theorem positionsAfter_perm (hs : s.Sound) (a? : Option Address) :
    (s.positionsAfter a?).Perm s.positions := by
  cases a? with
  | none => exact .refl _
  | some a =>
    cases h : s.find? a with
    | none => rw [positionsAfter_of_find?_eq_none h]
    | some i =>
      obtain ⟨before, behind, hpositions, hafter⟩ := hs.exists_positions_eq h
      rw [hpositions, hafter, List.append_cons before _ behind]
      exact List.perm_append_comm

/-! ### The candidates -/

theorem mem_candidates (hs : s.Sound) {p : Position s} :
    p ∈ s.candidates ↔ p.Spanned ∧ p.address ≠ p.range.gateway := by
  rw [candidates, List.mem_filter, hs.mem_positions]
  simp [isGateway]

/-- **The candidates are the addresses between the bounds of the members, without the gateways.** -/
theorem mem_candidatesAfter (hs : s.Sound) {a? : Option Address} {p : Position s} :
    p ∈ s.candidatesAfter a? ↔ p.Spanned ∧ p.address ≠ p.range.gateway := by
  rw [candidatesAfter, List.mem_filter, (hs.positionsAfter_perm a?).mem_iff, hs.mem_positions]
  simp [isGateway]

theorem exists_mem_candidatesAfter (hs : s.Sound) (a? : Option Address) {r : Range} {a : Address}
    (hr : r ∈ s.members) (hspans : r.Spans a) (hgateway : a ≠ r.gateway) :
    ∃ p ∈ s.candidatesAfter a?, p.address = a := by
  obtain ⟨i, rfl⟩ := List.mem_iff_get.mp hr
  exact ⟨⟨i, a⟩, hs.mem_candidatesAfter.mpr ⟨hspans, hgateway⟩, rfl⟩

theorem eq_of_address_eq (hs : s.Sound) {p q : Position s} (hp : p.Spanned) (hq : q.Spanned)
    (h : p.address = q.address) : p = q := by
  obtain ⟨i, a⟩ := p
  obtain ⟨j, b⟩ := q
  obtain rfl : a = b := h
  obtain rfl : i = j := hs.member_unique hp hq
  rfl

theorem length_candidatesAfter_le (hs : s.Sound) (a? : Option Address) :
    (s.candidatesAfter a?).length ≤ s.positionBound :=
  calc (s.candidatesAfter a?).length
    _ ≤ (s.positionsAfter a?).length := List.length_filter_le _ _
    _ = s.positions.length := (hs.positionsAfter_perm a?).length_eq
    _ ≤ s.positionBound := hs.length_positions_le

theorem countP_isGateway_le (hs : s.Sound) (a? : Option Address) :
    (s.positionsAfter a?).countP isGateway ≤ s.length := by
  rw [(hs.positionsAfter_perm a?).countP_eq, List.countP_eq_length_filter]
  -- a position that is a gateway is known by its member
  have hnodup : ((s.positions.filter isGateway).map Position.member).Nodup := by
    refine (hs.positions_nodup.filter _).map_on ?_
    rintro ⟨i, a⟩ hp ⟨j, b⟩ hq (rfl : i = j)
    have ha := beq_iff_eq.mp (List.mem_filter.mp hp).2
    have hb := beq_iff_eq.mp (List.mem_filter.mp hq).2
    exact congrArg (Position.mk i) (Eq.trans ha hb.symm)
  simpa using hnodup.length_le_card

end Sound

end RangeSet

end AddressPool
