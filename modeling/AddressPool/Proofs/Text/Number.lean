import AddressPool.Text.Number
import Mathlib.Data.Nat.Digits.Defs
import Mathlib.Tactic

/-!
# Reading numbers back

A number that is written in a base of at most sixteen is read back from its digits, if the limits on
their count and on the value leave room for it.  Digits are never separators: they are the ten
figures and the letters `a` to `f`, and only the number zero begins with a zero.
-/

namespace AddressPool.Text

def figures : List Char := "0123456789abcdef".toList

theorem digitChar_mem_figures {d : Nat} (hd : d < 16) : d.digitChar ∈ figures := by
  interval_cases d <;> decide

theorem digit?_digitChar {base d : Nat} (hbase : base ≤ 16) (hd : d < base) :
    digit? base d.digitChar = some d := by
  have hvalue : ∀ e < 16, (if 48 ≤ e.digitChar.toNat ∧ e.digitChar.toNat ≤ 57 then
      e.digitChar.toNat - 48 else if 97 ≤ e.digitChar.toNat ∧ e.digitChar.toNat ≤ 102 then
      e.digitChar.toNat - 87 else if 65 ≤ e.digitChar.toNat ∧ e.digitChar.toNat ≤ 70 then
      e.digitChar.toNat - 55 else base) = e := by
    intro e he
    interval_cases e <;> rfl
  simp only [digit?, hvalue d (by omega), hd, ↓reduceIte]

theorem mem_figures_of_mem_digits {base n : Nat} (hbase : 1 < base) (hle : base ≤ 16) :
    ∀ c ∈ digits base n, c ∈ figures := by
  induction n using Nat.strong_induction_on with
  | _ n ih =>
    intro c hc
    rw [digits, Nat.toDigits_eq_if hbase] at hc
    split_ifs at hc with hn
    · rw [List.mem_singleton] at hc
      subst hc
      exact digitChar_mem_figures (by omega)
    · rcases List.mem_append.mp hc with hc | hc
      · exact ih (n / base) (Nat.div_lt_self (by omega) hbase) c hc
      · rw [List.mem_singleton] at hc
        subst hc
        exact digitChar_mem_figures (lt_of_lt_of_le (Nat.mod_lt n (by omega)) hle)

theorem digits_ne_nil (base n : Nat) : digits base n ≠ [] :=
  Nat.toDigits_ne_nil

theorem ofDigits?_append_singleton (base : Nat) (cs : List Char) (c : Char) :
    ofDigits? base (cs ++ [c]) =
      (ofDigits? base cs).bind fun n => (digit? base c).map (base * n + ·) := by
  simp only [ofDigits?, List.foldlM_append, List.foldlM_cons, List.foldlM_nil, bind_pure]
  rfl

theorem ofDigits?_digits {base : Nat} (hbase : 1 < base) (hle : base ≤ 16) (n : Nat) :
    ofDigits? base (digits base n) = some n := by
  induction n using Nat.strong_induction_on with
  | _ n ih =>
    rw [digits, Nat.toDigits_eq_if hbase]
    split_ifs with hn
    · rw [← List.nil_append [n.digitChar], ofDigits?_append_singleton, digit?_digitChar hle hn]
      simp [ofDigits?]
    · have hmod : n % base < base := Nat.mod_lt n (by omega)
      have hdiv := ih (n / base) (Nat.div_lt_self (by omega) hbase)
      rw [digits] at hdiv
      rw [ofDigits?_append_singleton, digit?_digitChar hle hmod, hdiv]
      simp [Nat.div_add_mod]

theorem decimal_injective : Function.Injective decimal := by
  intro m n hmn
  have hdigits : digits 10 m = digits 10 n := String.ofList_injective hmn
  have hm := ofDigits?_digits (by norm_num) (by norm_num : 10 ≤ 16) m
  rw [hdigits, ofDigits?_digits (by norm_num) (by norm_num)] at hm
  exact (Option.some.inj hm).symm

theorem number?_digits {base most bound n : Nat} (hbase : 1 < base) (hle : base ≤ 16)
    (hmost : 0 < most) (hpow : n < base ^ most) (hbound : n < bound) :
    number? base most bound (digits base n) = some n := by
  have hlen : (digits base n).length ≤ most := Nat.toDigits_length base n most hmost hpow
  have hne : (digits base n).isEmpty = false := by simp [digits_ne_nil]
  rw [number?, hne, ofDigits?_digits hbase hle]
  simp [hbound, hlen]

theorem head?_digits {base n : Nat} (hbase : 1 < base) (hle : base ≤ 16)
    (hhead : (digits base n).head? = some '0') : n = 0 := by
  induction n using Nat.strong_induction_on with
  | _ n ih =>
    rw [digits, Nat.toDigits_eq_if hbase] at hhead
    split_ifs at hhead with hn
    · have hzero : ∀ e < 16, e.digitChar = '0' → e = 0 := by decide
      exact hzero n (by omega) (by simpa using hhead)
    · have hne : Nat.toDigits base (n / base) ≠ [] := Nat.toDigits_ne_nil
      rw [List.head?_append, List.head?_eq_some_head hne, Option.some_or,
        ← List.head?_eq_some_head hne] at hhead
      have := ih (n / base) (Nat.div_lt_self (by omega) hbase) hhead
      rw [Nat.div_eq_zero_iff] at this
      omega

end AddressPool.Text
