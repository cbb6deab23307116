import AddressPool.Proofs.Walk.Recognised
import Mathlib.Tactic

/-!
# Going on behind a candidate

The candidates after an address are those of the set in a circle, cut open in some place.  Where one
of them is taken and the next walk resumes after it, the ones that came before it come last
(`Sound.candidatesAfter_of_split`), so that every other candidate is offered before it comes again.
-/

namespace AddressPool

section Circle

variable {α : Type} {p : α} {xs ys before behind front back : List α}

theorem eq_of_split (hnodup : (before ++ p :: behind).Nodup)
    (h : before ++ p :: behind = front ++ p :: back) : before = front ∧ behind = back := by
  rw [List.nodup_middle, List.nodup_cons, List.mem_append, not_or] at hnodup
  obtain ⟨hbefore, -, hbehind⟩ := (List.append_cons_inj_of_notMem hnodup.1.1 hnodup.1.2).mp h
  exact ⟨hbefore, hbehind⟩

theorem rotation_of_split (hnodup : (xs ++ ys).Nodup) (h : xs ++ ys = before ++ p :: behind)
    (h' : ys ++ xs = front ++ p :: back) : behind ++ before = back ++ front := by
  have hnodup' : (ys ++ xs).Nodup := List.nodup_append_comm.mp hnodup
  have hmem : p ∈ xs ++ ys := h ▸ List.mem_append_right before List.mem_cons_self
  rcases List.mem_append.mp hmem with hp | hp <;> obtain ⟨u, v, rfl⟩ := List.append_of_mem hp
  · rw [List.append_assoc, List.cons_append] at hnodup h
    rw [← List.append_assoc] at hnodup' h'
    obtain ⟨rfl, rfl⟩ := eq_of_split hnodup h
    obtain ⟨rfl, rfl⟩ := eq_of_split hnodup' h'
    exact List.append_assoc v ys u
  · rw [← List.append_assoc] at hnodup h
    rw [List.append_assoc, List.cons_append] at hnodup' h'
    obtain ⟨rfl, rfl⟩ := eq_of_split hnodup h
    obtain ⟨rfl, rfl⟩ := eq_of_split hnodup' h'
    exact (List.append_assoc v xs u).symm

theorem split_cases {q : α} (h : before ++ q :: behind = front ++ p :: back) :
    (q = p ∧ before = front ∧ behind = back) ∨
      (∃ between, front = before ++ q :: between ∧ behind = between ++ p :: back) ∨
      ∃ between, before = front ++ p :: between ∧ back = between ++ q :: behind := by
  rcases List.append_eq_append_iff.mp h with ⟨_ | ⟨_, between⟩, hfront, hrest⟩ |
    ⟨_ | ⟨_, between⟩, hbefore, hrest⟩
  · obtain ⟨rfl, rfl⟩ := List.cons.inj hrest
    exact Or.inl ⟨rfl, by simpa using hfront.symm, rfl⟩
  · obtain ⟨rfl, rfl⟩ := List.cons.inj hrest
    exact Or.inr (Or.inl ⟨between, hfront, rfl⟩)
  · obtain ⟨rfl, rfl⟩ := List.cons.inj hrest
    exact Or.inl ⟨rfl, by simpa using hbefore, rfl⟩
  · obtain ⟨rfl, rfl⟩ := List.cons.inj hrest
    exact Or.inr (Or.inr ⟨between, hbefore, rfl⟩)

end Circle

namespace RangeSet.Sound

variable {s : RangeSet} {a? : Option Address} {p : Position s}

theorem exists_positionsAfter_eq (hs : s.Sound) (a? : Option Address) :
    ∃ front back, s.positions = front ++ back ∧ s.positionsAfter a? = back ++ front := by
  cases a? with
  | none => exact ⟨[], s.positions, rfl, (List.append_nil _).symm⟩
  | some a =>
    cases h : s.find? a with
    | none =>
      exact ⟨[], s.positions, rfl,
        (positionsAfter_of_find?_eq_none h).trans (List.append_nil _).symm⟩
    | some i =>
      obtain ⟨before, behind, hsplit, hafter⟩ := hs.exists_positions_eq h
      exact ⟨before ++ [⟨i, a.canonical⟩], behind, by rw [hsplit, List.append_cons], hafter⟩

theorem candidatesAfter_nodup (hs : s.Sound) (a? : Option Address) :
    (s.candidatesAfter a?).Nodup :=
  ((hs.positionsAfter_perm a?).nodup_iff.mpr hs.positions_nodup).filter _

theorem addresses_candidatesAfter_nodup (hs : s.Sound) (a? : Option Address) :
    ((s.candidatesAfter a?).map Position.address).Nodup := by
  refine (hs.candidatesAfter_nodup a?).map_on fun p hp q hq => ?_
  exact hs.eq_of_address_eq (hs.mem_candidatesAfter.mp hp).1 (hs.mem_candidatesAfter.mp hq).1

/-- **Behind a candidate come those that came after it, and then those that came before it.** -/
theorem candidatesAfter_of_split (hs : s.Sound) {l r : List (Position s)}
    (h : s.candidatesAfter a? = l ++ p :: r) (hplain : p.address.mapped? = none) :
    s.candidatesAfter (some p.address) = r ++ (l ++ [p]) := by
  have hmem : p ∈ s.candidatesAfter a? := h ▸ List.mem_append_right l List.mem_cons_self
  have hfind := hs.find?_of_spanned (hs.mem_candidatesAfter.mp hmem).1 hplain
  obtain ⟨before, behind, hsplit, hafter⟩ := hs.exists_positions_eq hfind
  rw [Address.canonical_eq_self_iff.mpr hplain] at hsplit hafter
  obtain ⟨xs, ys, hxs, hys⟩ := hs.exists_positionsAfter_eq a?
  -- what comes before and behind the candidate, gateways included
  rw [candidatesAfter, List.filter_eq_append_iff] at h
  obtain ⟨front, rest, hfront, rfl, hrest⟩ := h
  obtain ⟨gateways, back, rfl, hgateways, hp, rfl⟩ := List.filter_eq_cons_iff.mp hrest
  have hnone : gateways.filter (fun p => !p.isGateway) = [] := List.filter_eq_nil_iff.mpr hgateways
  rw [← List.append_assoc] at hfront
  have hcircle : behind ++ before = back ++ (front ++ gateways) :=
    rotation_of_split (hxs ▸ hs.positions_nodup) (hxs.symm.trans hsplit) (hys.symm.trans hfront)
  rw [candidatesAfter, hafter, ← List.append_assoc, hcircle, List.filter_append,
    List.filter_append, List.filter_append, hnone, List.append_nil,
    List.filter_singleton, hp, cond_true, List.append_assoc]

end RangeSet.Sound

end AddressPool
