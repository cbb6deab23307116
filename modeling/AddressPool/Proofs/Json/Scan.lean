import AddressPool.Json.Scan
import AddressPool.Json.Value
import AddressPool.Proofs.Action
import AddressPool.Proofs.Text.Bytes
import Mathlib.Tactic

/-!
# Reading texts between quotes

Inside a string a byte either stands for itself (`Plain`) or belongs to an escape.  Every character is
written so that its bytes are read again, whatever follows (`stringBytes_escaped`), and with that every
text is (`stringRest_quoted`).  Blanks between the parts of a value are passed over.
-/

namespace AddressPool.Json

open AddressPool.Text (digits le_of_mem_utf8EncodeChar utf8EncodeChar_of_lt)

/-! ### The bytes of characters -/

def bytes (cs : List Char) : Bytes :=
  cs.flatMap String.utf8EncodeChar

@[simp]
theorem bytes_nil : bytes [] = [] := rfl

@[simp]
theorem bytes_append (cs ds : List Char) : bytes (cs ++ ds) = bytes cs ++ bytes ds :=
  List.flatMap_append

theorem length_le_length_bytes (cs : List Char) : cs.length ≤ (bytes cs).length := by
  induction cs with
  | nil => exact Nat.zero_le _
  | cons c cs ih =>
    have hpos : 0 < (String.utf8EncodeChar c).length :=
      List.length_pos_of_ne_nil String.utf8EncodeChar_ne_nil
    rw [bytes, List.flatMap_cons, List.length_append, List.length_cons]
    rw [bytes] at ih
    omega

theorem bytesOf_eq_bytes (s : String) : bytesOf s = bytes s.toList := by
  rw [bytes, ← bytesOf_ofList, String.ofList_toList]

theorem utf8EncodeChar_ascii {c : Char} (hc : c.toNat < 128) :
    String.utf8EncodeChar c = [ascii c] :=
  utf8EncodeChar_of_lt hc

theorem bytes_cons_ascii {c : Char} (hc : c.toNat < 128) (cs : List Char) :
    bytes (c :: cs) = ascii c :: bytes cs := by
  rw [bytes, List.flatMap_cons, utf8EncodeChar_ascii hc]
  rfl

/-! ### Bytes that stand for themselves -/

/-- A byte stands for itself in a string. -/
def Plain (b : UInt8) : Prop :=
  b ≠ ascii '"' ∧ b ≠ ascii '\\' ∧ ¬ b < 0x20

instance (b : UInt8) : Decidable (Plain b) := inferInstanceAs (Decidable (_ ∧ _ ∧ _))

theorem stringBytes_quote (rest : Bytes) : stringBytes (ascii '"' :: rest) = .ok ([], rest) := by
  rw [stringBytes.eq_def]
  exact if_pos rfl

theorem stringBytes_append {bs : Bytes} (h : ∀ b ∈ bs, Plain b) (rest : Bytes) :
    stringBytes (bs ++ rest) = ahead bs (stringBytes rest) := by
  induction bs with
  | nil =>
    rw [List.nil_append]
    cases stringBytes rest <;> rfl
  | cons b bs ih =>
    obtain ⟨⟨hquote, hslash, hcontrol⟩, h⟩ := List.forall_mem_cons.mp h
    rw [List.cons_append, stringBytes.eq_def]
    simp only [if_neg hquote, if_neg hslash, if_neg hcontrol, ih h]
    cases stringBytes rest <;> rfl

/-- **A plain text between quotes is read as it is.** -/
theorem stringRest_bytesOf {text : String} (h : ∀ b ∈ bytesOf text, Plain b) (rest : Bytes) :
    stringRest (bytesOf text ++ ascii '"' :: rest) = .ok (text, rest) := by
  have htext : String.fromUTF8? (bytesOf text).toByteArray = some text := textOf?_bytesOf text
  rw [stringRest, stringBytes_append h, stringBytes_quote, ahead, List.append_nil, ok_bind]
  dsimp only
  rw [htext]

theorem plain_of_le {b : UInt8} (hb : 128 ≤ b) : Plain b := by
  have hle := UInt8.le_iff_toNat_le.mp hb
  refine ⟨?_, ?_, ?_⟩
  · rintro rfl
    exact absurd hb (by decide)
  · rintro rfl
    exact absurd hb (by decide)
  · intro hlt
    have hlt := UInt8.lt_iff_toNat_lt.mp hlt
    change 128 ≤ b.toNat at hle
    change b.toNat < 32 at hlt
    omega

theorem plain_utf8EncodeChar {c : Char} (hquote : c ≠ '"') (hslash : c ≠ '\\')
    (hcontrol : 32 ≤ c.toNat) : ∀ b ∈ String.utf8EncodeChar c, Plain b := by
  intro b hb
  by_cases hc : c.toNat < 128
  · rw [utf8EncodeChar_ascii hc, List.mem_singleton] at hb
    subst hb
    have hall : ∀ n < 128, 32 ≤ n → n ≠ 34 → n ≠ 92 → Plain (UInt8.ofNat n) := by decide
    have h34 : c.toNat ≠ 34 := fun h => hquote (Char.toNat_inj.mp h)
    have h92 : c.toNat ≠ 92 := fun h => hslash (Char.toNat_inj.mp h)
    have hascii : ascii c = UInt8.ofNat c.toNat := rfl
    rw [hascii]
    exact hall c.toNat hc hcontrol h34 h92
  · exact plain_of_le (le_of_mem_utf8EncodeChar (Nat.le_of_not_lt hc) hb)

/-! ### Escapes -/

theorem stringBytes_short {e b : UInt8} (he : e ≠ ascii 'u') (hb : shortEscape? e = some b)
    (rest : Bytes) :
    stringBytes (ascii '\\' :: e :: rest) = ahead [b] (stringBytes rest) := by
  have hquote : ascii '\\' ≠ ascii '"' := by decide
  rw [stringBytes.eq_def]
  simp only [if_neg hquote, if_pos, if_neg he, hb]

theorem stringBytes_unicode {a b c d : UInt8} {n : Nat} (hfour : hexFour? a b c d = some n)
    (hn : n < 0xD800) (rest : Bytes) :
    stringBytes (ascii '\\' :: ascii 'u' :: a :: b :: c :: d :: rest) =
      ahead (String.utf8EncodeChar (Char.ofNat n)) (stringBytes rest) := by
  have hquote : ascii '\\' ≠ ascii '"' := by decide
  rw [stringBytes.eq_def]
  simp only [if_neg hquote, if_pos, hfour, hn, true_or]

theorem hexValue?_digitChar {d : Nat} (hd : d < 16) : hexValue? (ascii d.digitChar) = some d := by
  interval_cases d <;> rfl

theorem stringBytes_hex {n : Nat} (hn : n < 256) (rest : Bytes) :
    stringBytes (bytes ['\\', 'u', '0', '0', (n / 16).digitChar, (n % 16).digitChar] ++ rest) =
      ahead (String.utf8EncodeChar (Char.ofNat n)) (stringBytes rest) := by
  have hascii : ∀ d < 16, d.digitChar.toNat < 128 := by decide
  have hhigh : n / 16 < 16 := by omega
  have hlow : n % 16 < 16 := by omega
  have hzero : hexValue? (ascii '0') = some 0 := rfl
  have hfour : hexFour? (ascii '0') (ascii '0') (ascii (n / 16).digitChar)
      (ascii (n % 16).digitChar) = some n := by
    simp only [hexFour?, hzero, hexValue?_digitChar hhigh, hexValue?_digitChar hlow]
    exact congrArg some (by omega)
  rw [bytes_cons_ascii (by decide), bytes_cons_ascii (by decide), bytes_cons_ascii (by decide),
    bytes_cons_ascii (by decide), bytes_cons_ascii (hascii _ hhigh),
    bytes_cons_ascii (hascii _ hlow)]
  exact stringBytes_unicode hfour (by omega) rest

/-- **What is written of a character is read as its bytes.** -/
theorem stringBytes_escaped (c : Char) (rest : Bytes) :
    stringBytes (bytes (escaped c) ++ rest) =
      ahead (String.utf8EncodeChar c) (stringBytes rest) := by
  have hof : ∀ {n}, c.toNat = n → c = Char.ofNat n := by
    rintro n rfl
    exact (Char.ofNat_toNat c).symm
  unfold escaped
  split_ifs with hquote hslash h8 h9 h10 h12 h13 h16 h32
  · subst hquote
    exact stringBytes_short (by decide) rfl rest
  · subst hslash
    exact stringBytes_short (by decide) rfl rest
  · rw [hof h8]
    exact stringBytes_short (by decide) rfl rest
  · rw [hof h9]
    exact stringBytes_short (by decide) rfl rest
  · rw [hof h10]
    exact stringBytes_short (by decide) rfl rest
  · rw [hof h12]
    exact stringBytes_short (by decide) rfl rest
  · rw [hof h13]
    exact stringBytes_short (by decide) rfl rest
  · have hdigits : '0' :: digits 16 c.toNat =
        [(c.toNat / 16).digitChar, (c.toNat % 16).digitChar] := by
      rw [digits, Nat.toDigits_of_lt_base h16, Nat.div_eq_of_lt h16, Nat.mod_eq_of_lt h16]
      rfl
    have hhex := stringBytes_hex (show c.toNat < 256 by omega) rest
    rw [← hdigits, Char.ofNat_toNat] at hhex
    exact hhex
  · have hdigits : digits 16 c.toNat =
        [(c.toNat / 16).digitChar, (c.toNat % 16).digitChar] := by
      have hlow : c.toNat / 16 < 16 := by omega
      rw [digits, Nat.toDigits_eq_if (by norm_num), if_neg h16, Nat.toDigits_of_lt_base hlow]
      rfl
    have hhex := stringBytes_hex (show c.toNat < 256 by omega) rest
    rw [← hdigits, Char.ofNat_toNat] at hhex
    exact hhex
  · rw [bytes, List.flatMap_singleton]
    exact stringBytes_append (plain_utf8EncodeChar hquote hslash (Nat.le_of_not_lt h32)) rest

theorem stringBytes_quoted (cs : List Char) (rest : Bytes) :
    stringBytes (bytes (cs.flatMap escaped) ++ ascii '"' :: rest) = .ok (bytes cs, rest) := by
  induction cs with
  | nil => exact stringBytes_quote rest
  | cons c cs ih =>
    rw [List.flatMap_cons, bytes_append, List.append_assoc, stringBytes_escaped, ih]
    rfl

/-- **A text between quotes is read as it is.** -/
theorem stringRest_quoted (s : String) (rest : Bytes) :
    stringRest (bytes (s.toList.flatMap escaped) ++ ascii '"' :: rest) = .ok (s, rest) := by
  have htext : String.fromUTF8? (bytes s.toList).toByteArray = some s := by
    rw [← bytesOf_eq_bytes]
    exact textOf?_bytesOf s
  rw [stringRest, stringBytes_quoted, ok_bind]
  dsimp only
  rw [htext]

theorem bytes_quoted (s : String) :
    bytes (quoted s) = ascii '"' :: bytes (s.toList.flatMap escaped) ++ [ascii '"'] := by
  rw [quoted, bytes_append, bytes_cons_ascii (by decide), bytes_cons_ascii (by decide)]
  rfl

/-! ### Blanks -/

/-- Nothing but what may stand between the parts of a value. -/
def Blank (gap : Bytes) : Prop :=
  ∀ b ∈ gap, isGapByte b = true

theorem blank_nil : Blank [] :=
  List.forall_mem_nil _

theorem blank_bytes {cs : List Char} (h : cs.all isGap = true) : Blank (bytes cs) := by
  intro b hb
  obtain ⟨c, hc, hb⟩ := List.mem_flatMap.mp hb
  have hgap : c = ' ' ∨ c = '\n' ∨ c = '\t' ∨ c = '\r' := by
    simpa [isGap, or_assoc] using List.all_eq_true.mp h c hc
  rcases hgap with rfl | rfl | rfl | rfl
  all_goals
    rw [utf8EncodeChar_ascii (by decide), List.mem_singleton] at hb
    subst hb
    rfl

theorem skipGap_append {gap : Bytes} (hgap : Blank gap) (bs : Bytes) :
    skipGap (gap ++ bs) = skipGap bs :=
  List.dropWhile_append_of_pos hgap

theorem nextByte_append {gap : Bytes} {b : UInt8} (hgap : Blank gap) (hb : isGapByte b = false)
    (rest : Bytes) : nextByte (gap ++ b :: rest) = .ok (b, rest) := by
  rw [nextByte, skipGap_append hgap, skipGap, List.dropWhile_cons_of_neg (by simp [hb])]

end AddressPool.Json
