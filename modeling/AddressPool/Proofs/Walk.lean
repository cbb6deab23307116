import AddressPool.Proofs.Walk.Candidates
import Mathlib.Tactic

/-!
# What a walk comes by

A walk over a sound set visits the positions of the set in the order of `RangeSet.positionsAfter`,
and then it is over (`visits_after`): a visit steps along the cycle of positions
(`visits_of_chain`), and the walk stops where it began.  So it offers the candidates of the set in
the order of `RangeSet.candidatesAfter` (`yields_after`), for it has patience for more gateways in a
row than there are in the whole set.
-/

namespace AddressPool

namespace Walk

variable {s : RangeSet}

/-- The positions that a walk has before it. -/
inductive Visits : Walk s → List (Position s) → Prop
  | done {w w' : Walk s} : w.visit = (none, w') → Visits w []
  | step {w w' : Walk s} {p : Position s} {ps : List (Position s)} :
      w.visit = (some p, w') → Visits w' ps → Visits w (p :: ps)

/-- The candidates that a walk has before it. -/
inductive Yields : Walk s → List (Position s) → Prop
  | done {w w' : Walk s} : w.next = (none, w') → Yields w []
  | step {w w' : Walk s} {p : Position s} {ps : List (Position s)} :
      w.next = (some p, w') → Yields w' ps → Yields w (p :: ps)

/-! ### The positions -/

theorem visit_eq_none {w w' : Walk s} (h : w.visit = (none, w')) : w' = w := by
  unfold visit at h
  split at h
  · split at h <;> cases h
    rfl
  · dsimp only at h
    split at h
    · cases h
    · split_ifs at h <;> cases h
      rfl

theorem visits_of_chain {here first : Position s} {ps : List (Position s)}
    (hchain : (here :: (ps ++ [first])).IsChain fun p q => p.next = q) (hfirst : first ∉ ps) :
    Visits ⟨some here, some first⟩ ps := by
  induction ps generalizing here with
  | nil =>
    rw [List.nil_append, List.isChain_pair] at hchain
    have hvisit : visit ⟨some here, some first⟩ = (none, ⟨some here, some first⟩) := by
      simp [visit, hchain]
    exact .done hvisit
  | cons p ps ih =>
    rw [List.cons_append, List.isChain_cons_cons] at hchain
    obtain ⟨hnext, hrest⟩ := hchain
    rw [List.mem_cons, not_or] at hfirst
    have hvisit : visit ⟨some here, some first⟩ = (some p, ⟨some p, some first⟩) := by
      simp [visit, hnext, hfirst.1]
    exact .step hvisit (ih hrest hfirst.2)

theorem visits_of_cycle {w : Walk s} {p : Position s} {ps : List (Position s)}
    (hfirst : w.visit = (some p, ⟨some p, some p⟩)) (hnodup : (p :: ps).Nodup)
    (hcycle : Cycle.Chain (fun p q : Position s => p.next = q) (p :: ps : List (Position s))) :
    Visits w (p :: ps) :=
  .step hfirst (visits_of_chain (Cycle.chain_coe_cons _ _ _ |>.mp hcycle)
    (List.nodup_cons.mp hnodup).1)

theorem visit_fresh (hpos : 0 < s.length) :
    (fresh s).visit = (some (Position.startOf s ⟨0, hpos⟩),
      ⟨some (Position.startOf s ⟨0, hpos⟩), some (Position.startOf s ⟨0, hpos⟩)⟩) := by
  simp [visit, fresh, RangeSet.origin?, hpos]

theorem visits_fresh (hs : s.Sound) : (fresh s).Visits s.positions := by
  obtain ⟨ps, hps⟩ := List.head?_eq_some_iff.mp hs.head?_positions
  have hnodup := hs.positions_nodup
  have hcycle := hs.positions_cycle
  rw [hps] at hnodup hcycle ⊢
  exact visits_of_cycle (visit_fresh hs.length_pos) hnodup hcycle

/-- **A walk visits each position of its set once, round from where it resumes.** -/
theorem visits_after (hs : s.Sound) (a? : Option Address) :
    (after s a?).Visits (s.positionsAfter a?) := by
  cases a? with
  | none => exact visits_fresh hs
  | some a =>
    cases h : s.find? a with
    | none =>
      simp only [after, s.find?_canonical a, h, RangeSet.positionsAfter_of_find?_eq_none h]
      exact visits_fresh hs
    | some i =>
      obtain ⟨before, behind, hpositions, hafter⟩ := hs.exists_positions_eq h
      have hnodup := (hs.positionsAfter_perm (some a)).nodup_iff.mpr hs.positions_nodup
      have hcycle := hs.positions_cycle
      -- the order in which a walk resumes is the cycle of positions, turned
      rw [hpositions, List.append_cons before _ behind,
        Cycle.coe_eq_coe.mpr List.isRotated_append, ← hafter] at hcycle
      have hne : s.positionsAfter (some a) ≠ [] := by simp [hafter]
      have hlast : (s.positionsAfter (some a)).getLast hne = ⟨i, a.canonical⟩ := by
        rw [List.getLast_eq_iff_getLast?_eq_some, hafter, ← List.append_assoc,
          List.getLast?_concat]
      have hround := (Cycle.chain_ne_nil _ hne).mp hcycle
      rw [hlast] at hround
      obtain ⟨p, ps, hps⟩ := List.exists_cons_of_ne_nil hne
      rw [hps] at hround hnodup hcycle ⊢
      have hnext := (List.isChain_cons_cons.mp hround).1
      refine visits_of_cycle ?_ hnodup hcycle
      simp only [after, s.find?_canonical a, h, visit, hnext]

/-! ### The candidates -/

theorem visitCandidate_of_visits {w : Walk s} {ps : List (Position s)} (hvisits : w.Visits ps)
    {most : Nat} (hmost : ps.countP Position.isGateway < most) :
    (∃ w', visitCandidate most w = (none, w') ∧ w'.Visits [] ∧
      ps.filter (fun p => !p.isGateway) = []) ∨
      ∃ p w' ps', visitCandidate most w = (some p, w') ∧ w'.Visits ps' ∧
        ps.filter (fun p => !p.isGateway) = p :: ps'.filter (fun p => !p.isGateway) ∧
        ps'.countP Position.isGateway ≤ ps.countP Position.isGateway := by
  induction hvisits generalizing most with
  | @done w w' hvisit =>
    obtain ⟨most, rfl⟩ := Nat.exists_eq_add_one_of_ne_zero (Nat.ne_zero_of_lt hmost)
    obtain rfl := visit_eq_none hvisit
    exact Or.inl ⟨w', by simp [visitCandidate, hvisit], .done hvisit, rfl⟩
  | @step w w' p ps hvisit hrest ih =>
    obtain ⟨most, rfl⟩ := Nat.exists_eq_add_one_of_ne_zero (Nat.ne_zero_of_lt hmost)
    cases hp : p.isGateway with
    | false =>
      refine Or.inr ⟨p, w', ps, ?_, hrest, ?_, ?_⟩
      · simp [visitCandidate, hvisit, hp]
      · rw [List.filter_cons_of_pos (by simp [hp])]
      · rw [List.countP_cons_of_neg (by simp [hp])]
    | true =>
      -- a gateway that is passed over takes patience, and there is one less ahead
      rw [List.countP_cons_of_pos hp] at hmost ⊢
      rw [List.filter_cons_of_neg (by simp [hp])]
      have hgo : visitCandidate (most + 1) w = visitCandidate most w' := by
        simp [visitCandidate, hvisit, hp]
      rw [hgo]
      rcases ih (Nat.lt_of_succ_lt_succ hmost) with hnone | ⟨q, w'', ps', hq, hvisits, hps, hcount⟩
      · exact Or.inl hnone
      · exact Or.inr ⟨q, w'', ps', hq, hvisits, hps, Nat.le_succ_of_le hcount⟩

theorem yields_of_visits {w : Walk s} {ps : List (Position s)} (hvisits : w.Visits ps)
    (hgateways : ps.countP Position.isGateway ≤ s.length) :
    w.Yields (ps.filter fun p => !p.isGateway) := by
  -- on the candidates, as one step of the walk may pass over several positions
  generalize hcs : ps.filter (fun p => !p.isGateway) = cs
  induction cs generalizing w ps with
  | nil =>
    rcases visitCandidate_of_visits hvisits (Nat.lt_succ_of_le hgateways) with
      ⟨w', hnext, -, -⟩ | ⟨p, w', ps', -, -, hps, -⟩
    · exact .done hnext
    · rw [hcs] at hps
      cases hps
  | cons c cs ih =>
    rcases visitCandidate_of_visits hvisits (Nat.lt_succ_of_le hgateways) with
      ⟨w', -, -, hnil⟩ | ⟨p, w', ps', hnext, hvisits', hps, hcount⟩
    · rw [hcs] at hnil
      cases hnil
    · rw [hcs, List.cons.injEq] at hps
      obtain ⟨rfl, rfl⟩ := hps
      exact .step hnext (ih hvisits' (hcount.trans hgateways) rfl)

/-- **A walk offers each candidate of its set once, round from where it resumes.** -/
theorem yields_after (hs : s.Sound) (a? : Option Address) :
    (after s a?).Yields (s.candidatesAfter a?) :=
  yields_of_visits (visits_after hs a?) (hs.countP_isGateway_le a?)

end Walk

end AddressPool
