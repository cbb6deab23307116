import AddressPool.Network
import Mathlib.Tactic

/-!
# Networks and the order of addresses

The order of addresses never leaves a family: between two addresses of one family there are only
addresses of that family, and so between two members of a network there are only members
(`Network.contains_of_between`).

The first host of a network in canonical form never stands for another address
(`Network.canonical_firstHost`): a network that begins inside the block of addresses that do lies
inside the block, and so stands for a shorter network itself.
-/

namespace AddressPool

/-! ### The order of addresses -/

theorem Family.size_eq (f : Family) : f.size = 2 ^ f.bits := rfl

namespace Address

theorem size_v4 : Family.v4.size = 4294967296 := by norm_num [Family.size, Family.bits]

theorem rank_v4 {a : Address} (hfamily : a.family = .v4) : a.rank = a.value := by
  simp [rank, hfamily]

theorem rank_v6 {a : Address} (hfamily : a.family = .v6) :
    a.rank = Family.v4.size + a.value := by
  simp [rank, hfamily]

theorem le_iff_of_family_eq {a b : Address} (hfamily : a.family = b.family) :
    a ≤ b ↔ a.value ≤ b.value := by
  rw [← not_iff_not]
  have hlt : ¬ a ≤ b ↔ b < a := by rw [le_iff, lt_iff, not_le]
  rw [hlt, lt_iff_of_family_eq hfamily.symm, not_le]

theorem le_trans {a b c : Address} (hab : a ≤ b) (hbc : b ≤ c) : a ≤ c :=
  Nat.le_trans hab hbc

theorem not_lt {a b : Address} : ¬ a < b ↔ b ≤ a := by
  rw [lt_iff, le_iff, Nat.not_lt]

theorem family_eq_of_between {a x b : Address} (hfamily : a.family = b.family) (hax : a ≤ x)
    (hxb : x ≤ b) : x.family = a.family := by
  rw [le_iff] at hax hxb
  have hx := x.value_lt
  have hb := b.value_lt
  cases ha : a.family <;> cases hxf : x.family
  · rfl
  · rw [← hfamily, ha] at hb
    rw [rank_v6 hxf, rank_v4 (hfamily ▸ ha)] at hxb
    omega
  · rw [hxf] at hx
    rw [rank_v6 ha, rank_v4 hxf] at hax
    omega
  · rfl

theorem family_of_mapped? {a b : Address} (h : a.mapped? = some b) :
    a.family = .v6 ∧ b.family = .v4 := by
  unfold mapped? at h
  split at h
  · cases h
  · split_ifs at h
    cases h
    exact ⟨‹_›, rfl⟩

theorem canonical_eq_self_iff {a : Address} : a.canonical = a ↔ a.mapped? = none := by
  cases h : a.mapped? with
  | none => simp [canonical, h]
  | some b =>
    refine iff_of_false (fun hself => ?_) (by simp)
    obtain ⟨hv6, hv4⟩ := family_of_mapped? h
    have hb : b = a := by rw [← hself, canonical, h, Option.getD_some]
    rw [← hb, hv4] at hv6
    cases hv6

theorem mapped?_canonical (a : Address) : a.canonical.mapped? = none :=
  canonical_eq_self_iff.mp a.canonical_canonical

theorem canonical_eq_self_of_family {a : Address} (hfamily : a.canonical.family = a.family) :
    a.canonical = a := by
  rw [canonical_eq_self_iff]
  by_contra hmapped
  obtain ⟨b, hb⟩ := Option.ne_none_iff_exists'.mp hmapped
  obtain ⟨hlong, hshort⟩ := family_of_mapped? hb
  rw [canonical, hb, Option.getD_some, hshort, hlong] at hfamily
  cases hfamily

theorem value_ofNat {f : Family} {n : Nat} (hn : n < f.size) : (ofNat f n).value = n :=
  Nat.mod_eq_of_lt hn

end Address

/-! ### Networks -/

namespace Network

theorem contains_iff {n : Network} {a : Address} :
    n.contains a = true ↔
      a.family = n.family ∧ n.base ≤ a.value ∧ a.value < n.base + n.size := by
  simp [contains, and_assoc]

theorem contains_of_between {n : Network} {a x b : Address} (ha : n.contains a)
    (hb : n.contains b) (hax : a ≤ x) (hxb : x ≤ b) : n.contains x := by
  rw [contains_iff] at ha hb ⊢
  have hab : a.family = b.family := ha.1.trans hb.1.symm
  have hx := Address.family_eq_of_between hab hax hxb
  rw [Address.le_iff_of_family_eq hx.symm] at hax
  rw [Address.le_iff_of_family_eq (hx.trans hab)] at hxb
  exact ⟨hx.trans ha.1, by omega, by omega⟩

theorem size_eq (n : Network) : n.size = 2 ^ (n.family.bits - n.length) := rfl

theorem four_le_size {n : Network} (hroom : n.length + 2 ≤ n.family.bits) : 4 ≤ n.size := by
  obtain ⟨k, hk⟩ : ∃ k, n.family.bits - n.length = k + 2 := ⟨n.family.bits - n.length - 2, by omega⟩
  have := Nat.one_le_two_pow (n := k)
  rw [size_eq, hk, Nat.pow_add]
  omega

theorem firstHost_eq {n : Network} (hroom : n.length + 2 ≤ n.family.bits) :
    n.firstHost.family = n.family ∧ n.firstHost.value = n.base + 1 := by
  have h4 := four_le_size hroom
  have hle := n.base_add_size_le
  have hnext : n.base + 1 < n.family.size := by omega
  simp [firstHost, Address.next?, lowest, hnext]

theorem lastHost_eq (n : Network) :
    n.lastHost.family = n.family ∧
      n.lastHost.value = n.base + (n.size - 1) - (if n.family = .v4 then 1 else 0) := by
  cases hf : n.family <;> simp [lastHost, highest, hf]

theorem firstHost_eq_ofNat {n : Network} (hroom : n.length + 2 ≤ n.family.bits) :
    n.firstHost = .ofNat n.family (n.base + 1) := by
  obtain ⟨hfamily, hvalue⟩ := firstHost_eq hroom
  have h4 := four_le_size hroom
  have hle := n.base_add_size_le
  exact Address.ext hfamily (hvalue.trans (Address.value_ofNat (by omega)).symm)

theorem lastHost_eq_ofNat (n : Network) :
    n.lastHost = .ofNat n.family (n.base + n.size - (if n.family = .v4 then 2 else 1)) := by
  obtain ⟨hfamily, hvalue⟩ := lastHost_eq n
  have hpos := n.size_pos
  have hle := n.base_add_size_le
  refine Address.ext hfamily ?_
  rw [Address.value_ofNat] <;> split_ifs at hvalue ⊢ <;> omega

theorem contains_firstHost {n : Network} (hroom : n.length + 2 ≤ n.family.bits) :
    n.contains n.firstHost := by
  obtain ⟨hfamily, hvalue⟩ := firstHost_eq hroom
  have h4 := four_le_size hroom
  exact contains_iff.mpr ⟨hfamily, by omega, by omega⟩

theorem contains_lastHost {n : Network} (hroom : n.length + 2 ≤ n.family.bits) :
    n.contains n.lastHost := by
  obtain ⟨hfamily, hvalue⟩ := lastHost_eq n
  have h4 := four_le_size hroom
  refine contains_iff.mpr ⟨hfamily, ?_, ?_⟩ <;> split_ifs at hvalue <;> omega

theorem broadcast?_ne_lastHost {n : Network} (hroom : n.length + 2 ≤ n.family.bits) :
    n.broadcast? ≠ some n.lastHost := by
  intro h
  have h4 := four_le_size hroom
  obtain ⟨-, hvalue⟩ := lastHost_eq n
  cases hf : n.family with
  | v6 => simp [broadcast?, hf] at h
  | v4 =>
    simp only [broadcast?, hf, Option.some.injEq] at h
    rw [← h, if_pos hf] at hvalue
    simp only [highest] at hvalue
    omega

theorem base_add_div (n : Network) {k : Nat} (hk : k < n.size) :
    (n.base + k) / n.size = n.address.value / n.size := by
  rw [base, Nat.add_comm, Nat.add_mul_div_right _ _ n.size_pos, Nat.div_eq_of_lt hk, Nat.zero_add]

theorem base_truncate (n : Network) : n.truncate.base = n.base := by
  show n.base / n.size * n.size = n.base
  rw [base, Nat.mul_div_cancel _ n.size_pos]

@[simp]
theorem truncate_truncate (n : Network) : n.truncate.truncate = n.truncate := by
  have hbase := base_truncate n
  simp only [truncate, lowest, Network.mk.injEq, and_true]
  exact Address.ext rfl hbase

@[simp]
theorem truncate_canonical (n : Network) : n.canonical.truncate = n.canonical :=
  truncate_truncate _

section Longer

variable {n : Network}

theorem size_of_v6 (hf : n.family = .v6) : n.size = 2 ^ (128 - n.length) := by
  rw [size_eq, hf]
  rfl

theorem lead_of_long (hf : n.family = .v6) (hlong : 96 ≤ n.length) {k : Nat} (hk : k < n.size) :
    (n.base + k) / Family.v4.size = n.address.value / Family.v4.size := by
  have hle : n.length ≤ 128 := by
    have := n.length_le
    rwa [show n.address.family = .v6 from hf] at this
  have hsplit : Family.v4.size = n.size * 2 ^ (n.length - 96) := by
    rw [size_of_v6 hf, ← Nat.pow_add, Family.size_eq, Family.bits]
    congr 1
    omega
  rw [hsplit, ← Nat.div_div_eq_div_mul, ← Nat.div_div_eq_div_mul, base_add_div n hk]

theorem lead_of_short (hf : n.family = .v6) (hshort : n.length < 96) :
    (n.base + 1) / Family.v4.size % 2 = 0 := by
  obtain ⟨k, hk⟩ : ∃ k, 128 - n.length = 32 + 1 + k := ⟨128 - n.length - 33, by omega⟩
  have hsplit : n.size = Family.v4.size * (2 * 2 ^ k) := by
    rw [size_of_v6 hf, hk, Nat.pow_add, Nat.pow_succ, Nat.mul_assoc]
    rfl
  have hone : 1 / Family.v4.size = 0 := Nat.div_eq_of_lt (by rw [Address.size_v4]; norm_num)
  rw [base, hsplit]
  generalize n.address.value / (Family.v4.size * (2 * 2 ^ k)) = q
  rw [show q * (Family.v4.size * (2 * 2 ^ k)) = Family.v4.size * (2 * (2 ^ k * q)) by ring,
    Nat.mul_add_div Family.v4.size_pos, hone, Nat.add_zero, Nat.mul_mod_right]

end Longer

theorem mapped?_eq_none_iff {n : Network} :
    n.mapped? = none ↔ n.address.mapped? = none ∨ n.length < 96 := by
  cases hm : n.address.mapped? with
  | none => simp [mapped?, hm]
  | some short =>
    obtain ⟨hlong, hshort⟩ := Address.family_of_mapped? hm
    have hle := n.length_le
    rw [hlong, Family.bits] at hle
    have hfits : n.length - 96 ≤ short.family.bits := by
      rw [hshort, Family.bits]
      omega
    simp [mapped?, hm, of?, hfits]

theorem family_of_mapped? {n m : Network} (h : n.mapped? = some m) : m.family = .v4 := by
  simp only [mapped?, Address.mapped?] at h
  grind [of?, Address.ofNat, family]

theorem mapped?_truncate {n : Network} (h : n.mapped? = none) : n.truncate.mapped? = none := by
  rw [mapped?_eq_none_iff] at h ⊢
  refine or_iff_not_imp_right.mpr fun hlong => ?_
  have haddress := h.resolve_right hlong
  cases hf : n.family with
  | v4 => simp [Address.mapped?, truncate, lowest, hf]
  | v6 =>
    have hlead := lead_of_long hf (Nat.le_of_not_lt hlong) n.size_pos
    rw [Nat.add_zero] at hlead
    simp only [Address.mapped?, show n.address.family = .v6 from hf] at haddress
    simp only [Address.mapped?, truncate, lowest, hf, hlead]
    split_ifs at haddress ⊢ with hblock
    rfl

theorem mapped?_canonical (n : Network) : n.canonical.mapped? = none := by
  cases hm : n.mapped? with
  | none =>
    rw [canonical, hm]
    exact mapped?_truncate hm
  | some m =>
    have hv4 : m.family = .v4 := family_of_mapped? hm
    rw [canonical, hm, Option.getD_some, mapped?_eq_none_iff]
    refine Or.inl ?_
    rw [Address.mapped?, show m.truncate.address.family = .v4 from hv4]

@[simp]
theorem canonical_canonical (n : Network) : n.canonical.canonical = n.canonical := by
  rw [canonical, mapped?_canonical, Option.getD_none, truncate_canonical]

theorem mapped?_firstHost {n : Network} (hroom : n.length + 2 ≤ n.family.bits)
    (hmapped : n.mapped? = none) : n.truncate.firstHost.mapped? = none := by
  have hroom' : n.truncate.length + 2 ≤ n.truncate.family.bits := hroom
  obtain ⟨hfamily, hvalue⟩ := firstHost_eq hroom'
  rw [base_truncate] at hvalue
  cases hf : n.family with
  | v4 => simp [Address.mapped?, hfamily, show n.truncate.family = .v4 from hf]
  | v6 =>
    have hne : (n.base + 1) / Family.v4.size ≠ 0xFFFF := by
      by_cases hlong : 96 ≤ n.length
      · have h4 := four_le_size hroom
        have haddress := (mapped?_eq_none_iff.mp hmapped).resolve_right (Nat.not_lt.mpr hlong)
        rw [lead_of_long hf hlong (by omega)]
        intro hblock
        simp [Address.mapped?, show n.address.family = .v6 from hf, hblock] at haddress
      · have := lead_of_short hf (Nat.lt_of_not_le hlong)
        omega
    simp [Address.mapped?, hfamily, show n.truncate.family = .v6 from hf, hvalue, hne]

theorem canonical_firstHost {n : Network}
    (hroom : n.canonical.length + 2 ≤ n.canonical.family.bits) :
    n.canonical.firstHost.canonical = n.canonical.firstHost := by
  cases hm : n.mapped? with
  | none =>
    have hn : n.canonical = n.truncate := by simp [canonical, hm]
    rw [hn] at hroom ⊢
    have hfirst := mapped?_firstHost (n := n) hroom hm
    simp [Address.canonical, hfirst]
  | some m =>
    have hv4 : m.family = .v4 := family_of_mapped? hm
    have hn : n.canonical = m.truncate := by simp [canonical, hm]
    rw [hn] at hroom ⊢
    exact Address.canonical_v4 ((firstHost_eq hroom).1.trans hv4)

end Network

end AddressPool
