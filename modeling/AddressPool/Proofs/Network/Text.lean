import AddressPool.Network.Text
import AddressPool.Proofs.Address.Text
import Mathlib.Tactic

/-!
# Reading networks back

The text of a network is read as that network (`parse?_text`): neither part of it has a slash, and the
number of shared bits fits the digits that the family of the address allows.
-/

namespace AddressPool

open AddressPool.Text

namespace Network

theorem ofChars?_chars (n : Network) :
    ofChars? (n.address.chars ++ '/' :: digits 10 n.length) = some n := by
  have hslash : ∀ piece ∈ [n.address.chars, digits 10 n.length], '/' ∉ piece := by
    have hfigures : '/' ∉ figures ∧ '/' ≠ '.' ∧ '/' ≠ ':' := by decide
    intro piece hpiece hmem
    simp only [List.mem_cons, List.not_mem_nil, or_false] at hpiece
    rcases hpiece with rfl | rfl
    · rcases Address.mem_chars hmem with h | h | h
      · exact hfigures.1 h
      · exact hfigures.2.1 h
      · exact hfigures.2.2 h
    · exact hfigures.1 (mem_figures_of_mem_digits (by norm_num) (by norm_num) _ hmem)
  have hsplit : (n.address.chars ++ '/' :: digits 10 n.length).splitOn '/' =
      [n.address.chars, digits 10 n.length] := by
    have hjoin := List.splitOn_intercalate '/' hslash (by simp)
    simpa [List.intercalate_cons_cons] using hjoin
  have hlength : number? 10 (lengthDigits n.address.family) (n.address.family.bits + 1)
      (digits 10 n.length) = some n.length := by
    have hle := n.length_le
    refine number?_digits (by norm_num) (by norm_num) ?_ ?_ (Nat.lt_succ_of_le hle)
    · cases n.address.family <;> decide
    · cases hf : n.address.family <;> rw [hf] at hle <;>
        simp only [Family.bits, lengthDigits] at hle ⊢ <;> omega
  rw [ofChars?, hsplit]
  simp only [Address.ofChars?_chars]
  show (number? _ _ _ _ >>= fun length => of? n.address length) = _
  rw [hlength]
  exact dif_pos n.length_le

/-- **What is written as a network is read as that network.** -/
theorem parse?_text (n : Network) : parse? n.text = some n := by
  have hchars : n.text.toList = n.address.chars ++ '/' :: digits 10 n.length := by
    simp [text, Address.text, decimal]
  rw [parse?, hchars, ofChars?_chars]

end Network

end AddressPool
