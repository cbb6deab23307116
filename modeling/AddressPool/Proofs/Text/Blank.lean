import AddressPool.Text.Blank
import Mathlib.Tactic

/-!
# Trimming

A text that was trimmed has no blank at either end, so trimming it again changes nothing
(`trim_trim`).  It is the text without a gap at either end (`exists_gaps`), and gaps that are put
around a text go with those that it has itself (`trimmed_surrounded`).
-/

namespace AddressPool.Text

theorem trimFront_of_head {cs : List Char} (hhead : ∀ c, cs.head? = some c → isBlank c = false) :
    trimFront cs = cs := by
  cases cs with
  | nil => rfl
  | cons c cs => rw [trimFront_cons, hhead c rfl, if_neg Bool.false_ne_true]

theorem head?_trimFront {cs : List Char} {c : Char} (hc : (trimFront cs).head? = some c) :
    isBlank c = false := by
  induction cs with
  | nil => cases hc
  | cons d cs ih =>
    rw [trimFront_cons] at hc
    split_ifs at hc with hd
    · exact ih hc
    · rw [List.head?_cons, Option.some.injEq] at hc
      rw [← hc]
      exact Bool.eq_false_iff.mpr hd

theorem trimBack_prefix (cs : List Char) : trimBack cs <+: cs := by
  have hsuffix : trimFront cs.reverse <:+ cs.reverse := List.dropWhile_suffix isBlank
  rw [trimBack, ← List.reverse_suffix, List.reverse_reverse]
  exact hsuffix

theorem trimBack_trimBack (cs : List Char) : trimBack (trimBack cs) = trimBack cs := by
  rw [trimBack, trimBack, List.reverse_reverse, trimFront_of_head fun _ => head?_trimFront]

theorem head?_trimmed {cs : List Char} {c : Char} (hc : (trimmed cs).head? = some c) :
    isBlank c = false := by
  obtain ⟨rest, hrest⟩ := trimBack_prefix (trimFront cs)
  have hhead : (trimFront cs).head? = some c := by
    rw [← hrest]
    change (trimmed cs ++ rest).head? = some c
    rw [List.head?_append, hc, Option.some_or]
  exact head?_trimFront hhead

theorem trimmed_trimmed (cs : List Char) : trimmed (trimmed cs) = trimmed cs := by
  have hfront : trimFront (trimmed cs) = trimmed cs := trimFront_of_head fun _ => head?_trimmed
  rw [trimmed, hfront, trimmed, trimBack_trimBack]

theorem trimmed_of_forall {cs : List Char} (h : ∀ c ∈ cs, isBlank c = false) : trimmed cs = cs := by
  have hfront : trimFront cs = cs := trimFront_of_head fun c hc => h c (List.mem_of_head? hc)
  have hback : trimFront cs.reverse = cs.reverse :=
    trimFront_of_head fun c hc => h c (List.mem_reverse.mp (List.mem_of_head? hc))
  rw [trimmed, hfront, trimBack, hback, List.reverse_reverse]

theorem trim_trim (s : String) : trim (trim s) = trim s := by
  rw [trim, trim, String.toList_ofList, trimmed_trimmed]

/-! ### Gaps -/

/-- Blanks and nothing else. -/
def Gap (cs : List Char) : Prop :=
  ∀ c ∈ cs, isBlank c = true

instance (cs : List Char) : Decidable (Gap cs) :=
  decidable_of_iff (cs.all isBlank = true) List.all_eq_true

variable {gap back cs : List Char}

theorem gap_takeWhile (cs : List Char) : Gap (cs.takeWhile isBlank) :=
  List.all_eq_true.mp List.all_takeWhile

theorem Gap.reverse (hgap : Gap gap) : Gap gap.reverse := fun c hc =>
  hgap c (List.mem_reverse.mp hc)

theorem trimFront_gap_append (hgap : Gap gap) (cs : List Char) :
    trimFront (gap ++ cs) = trimFront cs :=
  List.dropWhile_append_of_pos hgap

theorem trimFront_gap (hgap : Gap gap) : trimFront gap = [] := by
  rw [← List.append_nil gap, trimFront_gap_append hgap, trimFront_nil]

theorem trimBack_append_gap (hgap : Gap gap) (cs : List Char) :
    trimBack (cs ++ gap) = trimBack cs := by
  rw [trimBack, List.reverse_append, trimFront_gap_append hgap.reverse, trimBack]

/-- **Gaps around a text are trimmed with it.** -/
theorem trimmed_surrounded (hgap : Gap gap) (hback : Gap back) (cs : List Char) :
    trimmed (gap ++ cs ++ back) = trimmed cs := by
  rw [List.append_assoc, trimmed, trimFront_gap_append hgap, trimmed]
  have hfront : trimFront (cs ++ back) =
      if (trimFront cs).isEmpty then trimFront back else trimFront cs ++ back :=
    List.dropWhile_append
  rw [hfront]
  split_ifs with hempty
  · rw [trimFront_gap hback, List.isEmpty_iff.mp hempty]
  · exact trimBack_append_gap hback _

theorem exists_gaps (cs : List Char) :
    ∃ gap back, Gap gap ∧ Gap back ∧ cs = gap ++ trimmed cs ++ back := by
  have hfront : cs.takeWhile isBlank ++ trimFront cs = cs := List.takeWhile_append_dropWhile
  have hback : trimmed cs ++ ((trimFront cs).reverse.takeWhile isBlank).reverse = trimFront cs := by
    rw [trimmed, trimBack, ← List.reverse_append]
    change ((trimFront cs).reverse.takeWhile isBlank ++
      (trimFront cs).reverse.dropWhile isBlank).reverse = trimFront cs
    rw [List.takeWhile_append_dropWhile, List.reverse_reverse]
  refine ⟨_, _, gap_takeWhile cs, (gap_takeWhile (trimFront cs).reverse).reverse, ?_⟩
  rw [List.append_assoc, hback, hfront]

/-- A text with blanks around it, if any. -/
def Surrounds (core : List Char) (s : String) : Prop :=
  ∃ gap back, Gap gap ∧ Gap back ∧ s.toList = gap ++ core ++ back

/-- Two texts are the same but for the blanks around them. -/
def SameInside (s t : String) : Prop :=
  ∃ core, Surrounds core s ∧ Surrounds core t

theorem Surrounds.trim_eq {core : List Char} {s : String} (h : Surrounds core s) :
    trim s = String.ofList (trimmed core) := by
  obtain ⟨gap, back, hgap, hback, hs⟩ := h
  rw [trim, hs, trimmed_surrounded hgap hback]

/-- **Texts that come to the same when they are trimmed differ in blanks around them.** -/
theorem trim_eq_trim_iff {s t : String} : trim s = trim t ↔ SameInside s t := by
  constructor
  · intro h
    have hcore : trimmed s.toList = trimmed t.toList := String.ofList_injective h
    exact ⟨trimmed s.toList, exists_gaps s.toList, hcore ▸ exists_gaps t.toList⟩
  · rintro ⟨core, hs, ht⟩
    rw [hs.trim_eq, ht.trim_eq]

end AddressPool.Text
