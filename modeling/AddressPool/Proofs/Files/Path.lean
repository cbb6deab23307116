import AddressPool.Files.Path
import Mathlib.Tactic

/-!
# The names of a joined path

A name behind a path adds itself to the names of the path (`names_join`), and the path does not end
in a slash then.
-/

namespace AddressPool.Files

/-- The bytes are the name of a single entry of a directory. -/
structure IsName (name : Name) : Prop where
  slash : slash ∉ name
  nonempty : name ≠ []

namespace IsName

variable {name : Name}

theorem parts_eq (h : IsName name) : parts name = [name] :=
  List.splitOn_eq_singleton h.slash

theorem not_isAbsolute (h : IsName name) : isAbsolute name = false := by
  rw [isAbsolute, Bool.eq_false_iff]
  intro hhead
  exact h.slash (List.mem_of_head? (beq_iff_eq.mp hhead))

end IsName

variable {base name : Path}

theorem join_of_isAbsolute (base : Path) {path : Path} (h : isAbsolute path = true) :
    join base path = path :=
  if_pos h

theorem join_eq (base : Path) (h : IsName name) :
    ∃ between ∈ [[], [slash]], join base name = base ++ between ++ name := by
  rw [join, h.not_isAbsolute, if_neg Bool.false_ne_true]
  split_ifs
  · exact ⟨[], by simp, by simp⟩
  · exact ⟨[slash], by simp, by simp⟩

theorem names_append_slash (base rest : Path) :
    names (base ++ slash :: rest) = names base ++ names rest := by
  rw [names, parts, List.splitOn_append_cons_self, List.filter_append]
  rfl

theorem names_append_singleton (base : Path) : names (base ++ [slash]) = names base := by
  rw [names_append_slash base []]
  exact List.append_nil _

/-- **A name behind a path is one more name.** -/
theorem names_join (h : IsName name) : names (join base name) = names base ++ [name] := by
  have hname : names name = [name] := by
    rw [names, h.parts_eq]
    simp [h.nonempty]
  rw [join, h.not_isAbsolute, if_neg Bool.false_ne_true]
  split_ifs with hbase
  · rw [Bool.or_eq_true] at hbase
    rcases hbase with hempty | hlast
    · rw [List.isEmpty_iff.mp hempty, List.nil_append, hname]
      rfl
    · obtain ⟨front, rfl⟩ := List.getLast?_eq_some_iff.mp (beq_iff_eq.mp hlast)
      rw [names_append_singleton, List.append_assoc, List.singleton_append, names_append_slash, hname]
  · rw [names_append_slash, hname]

theorem not_endsInSlash_join (h : IsName name) : endsInSlash (join base name) = false := by
  obtain ⟨between, -, hjoin⟩ := join_eq base h
  rw [endsInSlash, hjoin, List.getLast?_append_of_ne_nil _ h.nonempty, Bool.eq_false_iff]
  intro hlast
  exact h.slash (List.mem_of_getLast? (beq_iff_eq.mp hlast))

end AddressPool.Files
