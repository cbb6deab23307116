import AddressPool.Proofs.Text.Blank
import Mathlib.Tactic

/-!
# Words

The words of a text are what its blanks leave: a text has some words exactly if it is these words
with gaps around and between them (`words_eq_iff`).
-/

namespace AddressPool.Text

variable {cs gap word rest : List Char} {ws : List (List Char)}

/-- A text is some words with gaps around and between them. -/
inductive Spaced : List (List Char) → List Char → Prop
  | nil {gap : List Char} : Gap gap → Spaced [] gap
  | cons {gap word rest : List Char} {ws : List (List Char)} : Gap gap → word ≠ [] →
      (∀ c ∈ word, isBlank c = false) → (∀ c, rest.head? = some c → isBlank c = true) →
      Spaced ws rest → Spaced (word :: ws) (gap ++ word ++ rest)

/-! ### Blanks -/

theorem words_append_cons {c : Char} (hc : isBlank c = true) (cs rest : List Char) :
    words (cs ++ c :: rest) = words cs ++ words rest := by
  rw [words, List.splitOnP_append_cons cs rest hc, List.filter_append]
  rfl

theorem words_gap_append (hgap : Gap gap) (cs : List Char) : words (gap ++ cs) = words cs := by
  induction gap with
  | nil => rfl
  | cons c gap ih =>
    obtain ⟨hc, hgap⟩ := List.forall_mem_cons.mp hgap
    rw [← ih hgap]
    exact words_append_cons hc [] _

theorem words_gap (hgap : Gap gap) : words gap = [] := by
  rw [← List.append_nil gap, words_gap_append hgap]
  rfl

theorem words_append_gap (hgap : Gap gap) (cs : List Char) : words (cs ++ gap) = words cs := by
  cases gap with
  | nil => rw [List.append_nil]
  | cons c gap =>
    obtain ⟨hc, hgap⟩ := List.forall_mem_cons.mp hgap
    rw [words_append_cons hc, words_gap hgap, List.append_nil]

theorem words_trimmed (cs : List Char) : words (trimmed cs) = words cs := by
  obtain ⟨gap, back, hgap, hback, hcs⟩ := exists_gaps cs
  conv_rhs => rw [hcs]
  rw [words_append_gap hback, words_gap_append hgap]

/-! ### Words -/

theorem words_word_append (hne : word ≠ []) (hword : ∀ c ∈ word, isBlank c = false)
    (hrest : ∀ c, rest.head? = some c → isBlank c = true) :
    words (word ++ rest) = word :: words rest := by
  have hkept : (!word.isEmpty) = true := by simpa using hne
  cases rest with
  | nil =>
    rw [List.append_nil, words, List.splitOnP_eq_singleton hword, List.filter_singleton, hkept]
    rfl
  | cons c rest =>
    have hc := hrest c rfl
    rw [words, List.splitOnP_append_cons_of_forall_mem hword c hc, List.filter_cons, hkept]
    exact congrArg (word :: ·) (words_append_cons hc [] rest).symm

theorem words_cons_of_not_blank {c : Char} (hc : isBlank c = false) (cs : List Char) :
    ∃ word ws, words (c :: cs) = (c :: word) :: ws := by
  obtain ⟨word, pieces, hpieces⟩ := List.exists_cons_of_ne_nil (List.splitOnP_ne_nil isBlank cs)
  refine ⟨word, pieces.filter fun word => !word.isEmpty, ?_⟩
  rw [words, List.splitOnP_cons_eq_if_modifyHead, hc, if_neg Bool.false_ne_true, hpieces]
  rfl

theorem words_of_spaced (h : Spaced ws cs) : words cs = ws := by
  induction h with
  | nil hgap => exact words_gap hgap
  | cons hgap hne hword hrest _ ih =>
    rw [List.append_assoc, words_gap_append hgap, words_word_append hne hword hrest, ih]

theorem exists_first_word (h : ¬ Gap cs) : ∃ gap word rest, Gap gap ∧ word ≠ [] ∧
    (∀ c ∈ word, isBlank c = false) ∧ (∀ c, rest.head? = some c → isBlank c = true) ∧
    cs = gap ++ word ++ rest := by
  have hcs : cs.takeWhile isBlank ++ trimFront cs = cs := List.takeWhile_append_dropWhile
  obtain ⟨c, tail, hfront⟩ := List.exists_cons_of_ne_nil (l := trimFront cs) fun hnil => by
    rw [hnil, List.append_nil] at hcs
    exact h (hcs ▸ gap_takeWhile cs)
  have hc : isBlank c = false := @head?_trimFront cs c (by rw [hfront]; rfl)
  refine ⟨cs.takeWhile isBlank, (c :: tail).takeWhile (!isBlank ·), (c :: tail).dropWhile (!isBlank ·),
    gap_takeWhile cs, ?_, ?_, ?_, ?_⟩
  · simp [hc]
  · intro d hd
    have hkept := List.all_eq_true.mp (List.all_takeWhile (p := (!isBlank ·)) (l := c :: tail)) d hd
    simpa using hkept
  · intro d hd
    have hnot := List.head?_dropWhile_not (!isBlank ·) (c :: tail)
    rw [hd] at hnot
    simpa using hnot
  · rw [List.append_assoc, List.takeWhile_append_dropWhile, ← hfront, hcs]

theorem spaced_words (cs : List Char) : Spaced (words cs) cs := by
  induction hn : cs.length using Nat.strong_induction_on generalizing cs with
  | _ n ih =>
    by_cases hblank : Gap cs
    · rw [words_gap hblank]
      exact .nil hblank
    · obtain ⟨gap, word, rest, hgap, hne, hword, hrest, rfl⟩ := exists_first_word hblank
      rw [List.append_assoc, words_gap_append hgap, words_word_append hne hword hrest,
        ← List.append_assoc]
      have hpos := List.length_pos_iff.mpr hne
      rw [List.length_append, List.length_append] at hn
      exact .cons hgap hne hword hrest (ih rest.length (by omega) rest rfl)

/-- **The words of a text are what it is with gaps around and between them.** -/
theorem words_eq_iff : words cs = ws ↔ Spaced ws cs :=
  ⟨fun h => h ▸ spaced_words cs, words_of_spaced⟩

/-! ### Single blanks -/

/-- Words with single blanks between them. -/
def spaced (ws : List (List Char)) : List Char :=
  [' '].intercalate ws

theorem spaced_cons_cons (word next : List Char) (ws : List (List Char)) :
    spaced (word :: next :: ws) = word ++ ' ' :: spaced (next :: ws) := by
  simp [spaced, List.intercalate_cons_cons]

theorem words_spaced (h : ∀ word ∈ ws, word ≠ [] ∧ ∀ c ∈ word, isBlank c = false) :
    words (spaced ws) = ws := by
  induction ws with
  | nil => rfl
  | cons word ws ih =>
    obtain ⟨⟨hne, hword⟩, hws⟩ := List.forall_mem_cons.mp h
    cases ws with
    | nil =>
      have hsingle : spaced [word] = word ++ [] := by simp [spaced]
      rw [hsingle, words_word_append hne hword (by simp)]
      rfl
    | cons next ws =>
      have hblank : ∀ c, (' ' :: spaced (next :: ws)).head? = some c → isBlank c = true := by
        rintro _ ⟨⟩
        decide
      have hgap : Gap [' '] := List.forall_mem_singleton.mpr (by decide)
      have hrest : words (' ' :: spaced (next :: ws)) = words (spaced (next :: ws)) :=
        words_gap_append hgap _
      rw [spaced_cons_cons, words_word_append hne hword hblank, hrest, ih hws]

theorem notMem_spaced {c : Char} (hc : c ≠ ' ') (h : ∀ word ∈ ws, c ∉ word) : c ∉ spaced ws := by
  induction ws with
  | nil => simp [spaced]
  | cons word ws ih =>
    obtain ⟨hword, hws⟩ := List.forall_mem_cons.mp h
    cases ws with
    | nil => simpa [spaced] using hword
    | cons next ws =>
      rw [spaced_cons_cons, List.mem_append, List.mem_cons, not_or, not_or]
      exact ⟨hword, hc, ih hws⟩

end AddressPool.Text
