import AddressPool.Text.Bytes
import Mathlib.Tactic

/-!
# The bytes of a text

Bytes stand for the text whose bytes they are (`textOf?_eq_some_iff`), and a byte of ASCII is in them
only as a character of the text (`mem_bytesOf`).
-/

namespace AddressPool

theorem textOf?_bytesOf (text : String) : textOf? (bytesOf text) = some text := by
  have hbytes : (bytesOf text).toByteArray = text.toByteArray := by
    ext1
    simp [bytesOf]
  rw [textOf?, hbytes, String.fromUTF8?, dif_pos text.isValidUTF8]
  rfl

theorem bytesOf_injective : Function.Injective bytesOf := fun s t h => by
  have htext := textOf?_bytesOf s
  rw [h, textOf?_bytesOf] at htext
  exact (Option.some.inj htext).symm

/-- **Bytes stand for a text if they are its bytes.** -/
theorem textOf?_eq_some_iff {bytes : List UInt8} {text : String} :
    textOf? bytes = some text ↔ bytes = bytesOf text := by
  constructor
  · intro h
    rw [textOf?, String.fromUTF8?] at h
    split_ifs at h with hvalid
    cases h
    show bytes = bytes.toByteArray.data.toList
    simp
  · rintro rfl
    exact textOf?_bytesOf text

theorem bytesOf_append (s t : String) : bytesOf (s ++ t) = bytesOf s ++ bytesOf t := by
  simp [bytesOf]

theorem length_bytesOf (text : String) : (bytesOf text).length = text.utf8ByteSize := by
  simp [bytesOf]

theorem bytesOf_ofList (cs : List Char) :
    bytesOf (String.ofList cs) = cs.flatMap String.utf8EncodeChar := by
  show (cs.flatMap String.utf8EncodeChar).toByteArray.data.toList = _
  simp

namespace Text

theorem le_ofNat_add (n : Nat) {k base : Nat} (hk : 0 < k) (hbase : 128 ≤ base)
    (hsum : k + base ≤ 256) : 128 ≤ UInt8.ofNat (n % k + base) := by
  have hlt : n % k < k := Nat.mod_lt n hk
  rw [UInt8.le_iff_toNat_le, UInt8.toNat_ofNat', Nat.mod_eq_of_lt (by omega)]
  show 128 ≤ n % k + base
  omega

theorem le_of_mem_utf8EncodeChar {c : Char} (hc : 128 ≤ c.toNat) {b : UInt8}
    (hb : b ∈ String.utf8EncodeChar c) : 128 ≤ b := by
  rw [String.utf8EncodeChar, if_neg (by exact Nat.not_le_of_gt hc)] at hb
  split_ifs at hb <;> simp only [List.mem_cons, List.not_mem_nil, or_false] at hb
  · rcases hb with rfl | rfl <;> exact le_ofNat_add _ (by norm_num) (by norm_num) (by norm_num)
  · rcases hb with rfl | rfl | rfl <;>
      exact le_ofNat_add _ (by norm_num) (by norm_num) (by norm_num)
  · rcases hb with rfl | rfl | rfl | rfl <;>
      exact le_ofNat_add _ (by norm_num) (by norm_num) (by norm_num)

theorem utf8EncodeChar_of_lt {c : Char} (hc : c.toNat < 128) :
    String.utf8EncodeChar c = [c.toUInt8] := by
  rw [String.utf8EncodeChar, if_pos (by exact Nat.le_of_lt_succ hc)]
  rfl

/-- **A byte of ASCII in a text is a character of the text.** -/
theorem mem_bytesOf {b : UInt8} (hb : b < 128) {text : String} (h : b ∈ bytesOf text) :
    ∃ c ∈ text.toList, c.toUInt8 = b := by
  rw [← String.ofList_toList (s := text), bytesOf_ofList, List.mem_flatMap] at h
  obtain ⟨c, hc, hmem⟩ := h
  refine ⟨c, hc, ?_⟩
  by_cases hascii : c.toNat < 128
  · rw [utf8EncodeChar_of_lt hascii, List.mem_singleton] at hmem
    exact hmem.symm
  · have hle := le_of_mem_utf8EncodeChar (Nat.le_of_not_lt hascii) hmem
    rw [UInt8.le_iff_toNat_le] at hle
    rw [UInt8.lt_iff_toNat_lt] at hb
    omega

end Text

end AddressPool
