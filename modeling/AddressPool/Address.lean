/-!
# Internet addresses

An address is a number below the size of its family's space, tagged with the family.  Addresses are
ordered by family first, the shorter family before the longer, and then by number.

A longer address can carry a shorter one: the addresses of the block `::ffff:0:0/96` stand for the
addresses of the shorter family, and `Address.canonical` replaces them by what they stand for.
-/

namespace AddressPool

/-- The two families of addresses. -/
inductive Family where
  | v4
  | v6
  deriving DecidableEq, Repr

namespace Family

def bits : Family → Nat
  | v4 => 32
  | v6 => 128

def size (f : Family) : Nat :=
  Nat.pow 2 f.bits

theorem size_pos (f : Family) : 0 < f.size :=
  Nat.two_pow_pos f.bits

def version : Family → String
  | v4 => "4"
  | v6 => "6"

end Family

/-- An address: a number below the size of its family. -/
structure Address where
  family : Family
  value : Nat
  value_lt : value < family.size
  deriving DecidableEq, Repr

namespace Address

@[ext]
theorem ext {a b : Address} (hfamily : a.family = b.family) (hvalue : a.value = b.value) :
    a = b := by
  cases a; cases b; cases hfamily; cases hvalue; rfl

/-- The address of a family with the given number, counted round at the end of the space. -/
def ofNat (f : Family) (n : Nat) : Address where
  family := f
  value := n % f.size
  value_lt := Nat.mod_lt _ f.size_pos

instance : Inhabited Address := ⟨ofNat .v4 0⟩

/-- The place of an address in the common order: all of the shorter family come first. -/
def rank (a : Address) : Nat :=
  match a.family with
  | .v4 => a.value
  | .v6 => Family.v4.size + a.value

theorem rank_injective {a b : Address} (hrank : a.rank = b.rank) : a = b := by
  obtain ⟨fa, va, ha⟩ := a
  obtain ⟨fb, vb, hb⟩ := b
  cases fa <;> cases fb <;> simp only [rank] at hrank
  · subst hrank; rfl
  · omega
  · omega
  · have : va = vb := by omega
    subst this; rfl

instance : LT Address := ⟨fun a b => a.rank < b.rank⟩

instance : LE Address := ⟨fun a b => a.rank ≤ b.rank⟩

instance (a b : Address) : Decidable (a < b) := inferInstanceAs (Decidable (a.rank < b.rank))

instance (a b : Address) : Decidable (a ≤ b) := inferInstanceAs (Decidable (a.rank ≤ b.rank))

theorem lt_iff {a b : Address} : a < b ↔ a.rank < b.rank := Iff.rfl

theorem le_iff {a b : Address} : a ≤ b ↔ a.rank ≤ b.rank := Iff.rfl

theorem lt_iff_of_family_eq {a b : Address} (hfamily : a.family = b.family) :
    a < b ↔ a.value < b.value := by
  obtain ⟨fa, va, ha⟩ := a
  obtain ⟨fb, vb, hb⟩ := b
  cases hfamily
  cases fa <;> simp [lt_iff, rank]

def next? (a : Address) : Option Address :=
  if h : a.value + 1 < a.family.size then some ⟨a.family, a.value + 1, h⟩ else none

theorem next?_eq_none_iff {a : Address} : a.next? = none ↔ a.value + 1 = a.family.size := by
  have := a.value_lt
  unfold next?
  split <;> simp <;> omega

/-! ### Addresses that stand for others -/

/-- The number of the first address of the block whose members stand for shorter addresses. -/
def mappedBase : Nat := 0xFFFF * Family.v4.size

/-- The address of the shorter family that this one stands for, if it is in the block. -/
def mapped? (a : Address) : Option Address :=
  match a.family with
  | .v4 => none
  | .v6 => if a.value / Family.v4.size = 0xFFFF then some (ofNat .v4 a.value) else none

/-- The longer address that stands for an address of the shorter family. -/
def toMapped (a : Address) : Address :=
  ofNat .v6 (mappedBase + a.value)

def canonical (a : Address) : Address :=
  a.mapped?.getD a

@[simp]
theorem canonical_v4 {a : Address} (hfamily : a.family = .v4) : a.canonical = a := by
  simp [canonical, mapped?, hfamily]

@[simp]
theorem canonical_canonical (a : Address) : a.canonical.canonical = a.canonical := by
  obtain ⟨f, v, hv⟩ := a
  cases f with
  | v4 => simp
  | v6 =>
    by_cases hm : v / Family.v4.size = 0xFFFF
    · simp [canonical, mapped?, hm, ofNat]
    · simp [canonical, mapped?, hm]

end Address

end AddressPool
