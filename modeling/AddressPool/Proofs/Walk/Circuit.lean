import AddressPool.Proofs.Walk
import Mathlib.Tactic

/-!
# A walk goes round its set once

What a walk answers, however often it is asked, are the candidates of its set from first to last and
then nothing any more (`answer_of_visits`).  A fresh walk offers them in their order; one that
resumes behind a position of the set offers those behind it and then those up to it
(`goesRound`).
-/

namespace AddressPool

open Position

namespace RangeSet.Sound

variable {s : RangeSet} {i : Fin s.length} {a : Address}

theorem find?_of_contains (hs : s.Sound) (h : (s.member i).contains a = true) :
    s.find? a = some i := by
  have hcanonical : (s.member i).contains a.canonical = true := by
    rw [Range.contains, Address.canonical_canonical]
    exact h
  have hcontains : s.contains a = true := contains_iff.mpr ⟨_, s.member_mem i, hcanonical⟩
  obtain ⟨j, hj⟩ := Option.isSome_iff_exists.mp hcontains
  rw [hj, hs.member_unique (hs.spans_of_find? hj) ((hs.member i).spans_of_contains h)]

theorem exists_candidates_eq (hs : s.Sound) (h : s.find? a = some i) :
    ∃ upTo behind, s.candidates = upTo ++ behind ∧
      s.candidatesAfter (some a) = behind ++ upTo ∧
      (∀ p ∈ upTo, ¬ Before ⟨i, a.canonical⟩ p) ∧ (∀ p ∈ behind, Before ⟨i, a.canonical⟩ p) ∧
      (⟨i, a.canonical⟩ ∈ s.candidates → upTo.getLast? = some ⟨i, a.canonical⟩) := by
  obtain ⟨before, behind, hpositions, hafter⟩ := hs.exists_positions_eq h
  have hsorted := hs.positions_sorted
  rw [hpositions, List.pairwise_append, List.pairwise_cons] at hsorted
  obtain ⟨-, ⟨hbehind, -⟩, hbefore⟩ := hsorted
  let here : Position s := ⟨i, a.canonical⟩
  refine ⟨(before ++ [here]).filter fun p => !p.isGateway,
    behind.filter fun p => !p.isGateway, ?_, ?_, ?_, ?_, ?_⟩
  · rw [candidates, hpositions, List.append_cons, List.filter_append]
  · rw [candidatesAfter, hafter, List.filter_append]
  · intro p hp
    rcases List.mem_append.mp (List.mem_of_mem_filter hp) with hp | hp
    · exact (hbefore p hp _ List.mem_cons_self).not_before
    · rw [List.mem_singleton.mp hp]
      exact fun hself => hself.ne rfl
  · intro p hp
    exact hbehind p (List.mem_of_mem_filter hp)
  · intro hmem
    have hplain := (List.mem_filter.mp hmem).2
    rw [List.filter_append, List.filter_singleton, hplain, cond_true, List.getLast?_concat]

end RangeSet.Sound

namespace Walk

variable {s : RangeSet} {w : Walk s} {ps : List (Position s)}

/-- What a walk answers when it has been asked for a candidate some times before. -/
def answer : Nat → Walk s → Option (Position s)
  | 0, w => w.next.1
  | k + 1, w => answer k w.next.2

theorem answer_of_visits (hvisits : w.Visits ps) (hgateways : ps.countP isGateway ≤ s.length)
    (k : Nat) : w.answer k = (ps.filter fun p => !p.isGateway)[k]? := by
  induction k generalizing w ps with
  | zero =>
    rcases visitCandidate_of_visits hvisits (Nat.lt_succ_of_le hgateways) with
      ⟨w', hnext, -, hnil⟩ | ⟨p, w', ps', hnext, -, hps, -⟩
    · simp [answer, next, hnext, hnil]
    · simp [answer, next, hnext, hps]
  | succ k ih =>
    rcases visitCandidate_of_visits hvisits (Nat.lt_succ_of_le hgateways) with
      ⟨w', hnext, hover, hnil⟩ | ⟨p, w', ps', hnext, hvisits', hps, hcount⟩
    · have hlater := ih hover (Nat.zero_le _)
      simpa [answer, next, hnext, hnil] using hlater
    · have hlater := ih hvisits' (hcount.trans hgateways)
      simpa [answer, next, hnext, hps] using hlater

theorem answer_after (hs : s.Sound) (a? : Option Address) (k : Nat) :
    (after s a?).answer k = (s.candidatesAfter a?)[k]? :=
  answer_of_visits (visits_after hs a?) (hs.countP_isGateway_le a?) k

/-- The walks over a set go round a list of positions: these are the addresses between the bounds
of the members, gateways apart, member by member and upwards.  A fresh walk answers with them, and
then with nothing for good; one that resumes after an address of a member begins behind it and
ends with it, and after any other address a walk is a fresh one. -/
structure GoesRound (s : RangeSet) (ps : List (Position s)) : Prop where
  sorted : ps.Pairwise Before
  mem_iff : ∀ p, p ∈ ps ↔ p.Spanned ∧ p.address ≠ p.range.gateway
  ends : ∀ a?, ∃ visited, (after s a?).Visits visited
  fresh : ∀ k, (fresh s).answer k = ps[k]?
  resumed : ∀ a i, (s.member i).contains a = true → ∃ upTo behind, ps = upTo ++ behind ∧
    (∀ p ∈ upTo, ¬ Before ⟨i, a.canonical⟩ p) ∧ (∀ p ∈ behind, Before ⟨i, a.canonical⟩ p) ∧
    (⟨i, a.canonical⟩ ∈ ps → upTo.getLast? = some ⟨i, a.canonical⟩) ∧
    ∀ k, (after s (some a)).answer k = (behind ++ upTo)[k]?
  anew : ∀ a?, (∀ a, a? = some a → s.contains a = false) → after s a? = Walk.fresh s

/-- **The walks over a set go round its candidates, once each.** -/
theorem goesRound (hs : s.Canonicalized) : GoesRound s s.candidates where
  sorted := hs.sound.positions_sorted.filter _
  mem_iff _ := hs.sound.mem_candidates
  ends a? := ⟨_, visits_after hs.sound a?⟩
  fresh := answer_after hs.sound none
  resumed a i hcontains := by
    have hfind := hs.sound.find?_of_contains hcontains
    obtain ⟨upTo, behind, hsplit, hafter, hupTo, hbehind, hlast⟩ :=
      hs.sound.exists_candidates_eq hfind
    refine ⟨upTo, behind, hsplit, hupTo, hbehind, hlast, fun k => ?_⟩
    rw [answer_after hs.sound, hafter]
  anew a? hnot := by
    cases a? with
    | none => rfl
    | some a =>
      have hnone : s.find? a.canonical = none := by
        rw [s.find?_canonical]
        simpa [RangeSet.contains] using hnot a rfl
      simp [after, hnone]

/-- A set whose first member ends at the top of the address space, and whose second one has its
gateway at the end. -/
def topSet : RangeSet :=
  let top := 2 ^ 128 - 1
  ⟨[{ subnet := ⟨.ofNat .v6 (top - 3), 126, (by decide : 126 ≤ 128)⟩
      start? := some (.ofNat .v6 (top - 1))
      last? := some (.ofNat .v6 top)
      gateway? := some (.ofNat .v6 (top - 2)) },
    { subnet := ⟨.ofNat .v6 0, 126, (by decide : 126 ≤ 128)⟩
      start? := some (.ofNat .v6 2)
      last? := some (.ofNat .v6 3)
      gateway? := some (.ofNat .v6 3) }]⟩

theorem goesRound_topSet : topSet.Canonicalized ∧ GoesRound topSet topSet.candidates ∧
    topSet.candidates.map address =
      [.ofNat .v6 (2 ^ 128 - 2), .ofNat .v6 (2 ^ 128 - 1), .ofNat .v6 2] := by
  have hs : topSet.Canonicalized := ⟨topSet, rfl⟩
  exact ⟨hs, goesRound hs, by decide +kernel⟩

end Walk

end AddressPool
