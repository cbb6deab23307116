import AddressPool.Address

/-!
# Networks

A network is an address together with the count of its leading bits that all members share.  The
bits of the address after these are kept until `Network.truncate` clears them.  A network of the
longer family whose address stands for a shorter one, and whose shared bits cover the whole mark of
that block, stands for a network of the shorter family.
-/

namespace AddressPool

/-- An address with the number of leading bits that the members of the network share. -/
structure Network where
  address : Address
  length : Nat
  length_le : length ≤ address.family.bits
  deriving DecidableEq, Repr

namespace Network

instance : Inhabited Network := ⟨⟨default, 0, Nat.zero_le _⟩⟩

/-- The network of an address with the given number of shared bits, if it has so many. -/
def of? (a : Address) (length : Nat) : Option Network :=
  if h : length ≤ a.family.bits then some ⟨a, length, h⟩ else none

def family (n : Network) : Family :=
  n.address.family

def size (n : Network) : Nat :=
  Nat.pow 2 (n.family.bits - n.length)

theorem size_pos (n : Network) : 0 < n.size :=
  Nat.two_pow_pos _

theorem size_mul (n : Network) : Nat.pow 2 n.length * n.size = n.family.size := by
  have hle : n.length ≤ n.family.bits := n.length_le
  simp only [size, Family.size, Nat.pow_eq]
  rw [← Nat.pow_add, Nat.add_sub_cancel' hle]

def base (n : Network) : Nat :=
  n.address.value / n.size * n.size

theorem base_add_size_le (n : Network) : n.base + n.size ≤ n.family.size := by
  have hlt : n.address.value / n.size < Nat.pow 2 n.length := by
    rw [Nat.div_lt_iff_lt_mul n.size_pos, size_mul]
    exact n.address.value_lt
  have := Nat.mul_le_mul_right n.size hlt
  rw [size_mul] at this
  simpa [base, Nat.succ_mul] using this

def lowest (n : Network) : Address where
  family := n.family
  value := n.base
  value_lt := Nat.lt_of_lt_of_le (Nat.lt_add_of_pos_right n.size_pos) n.base_add_size_le

/-- The highest member. -/
def highest (n : Network) : Address where
  family := n.family
  value := n.base + (n.size - 1)
  value_lt := by
    have := n.base_add_size_le
    have := n.size_pos
    omega

def truncate (n : Network) : Network where
  address := n.lowest
  length := n.length
  length_le := n.length_le

/-- The network that stands for this one in the shorter family, if there is one. -/
def mapped? (n : Network) : Option Network :=
  match n.address.mapped? with
  | none => none
  | some short => if 96 ≤ n.length then of? short (n.length - 96) else none

/-- The network, or what it stands for, with the bits after the shared ones cleared. -/
def canonical (n : Network) : Network :=
  (n.mapped?.getD n).truncate

def contains (n : Network) (a : Address) : Bool :=
  a.family == n.family && n.base ≤ a.value && a.value < n.base + n.size

def firstHost (n : Network) : Address :=
  n.lowest.next?.getD n.lowest

/-- The broadcast address, which only networks of the shorter family have. -/
def broadcast? (n : Network) : Option Address :=
  match n.family with
  | .v4 => some n.highest
  | .v6 => none

/-- The last address that a host may have: in the shorter family the one before the broadcast
address, in the longer family the highest. -/
def lastHost (n : Network) : Address :=
  match n.family with
  | .v4 => { n.highest with
      value := n.highest.value - 1
      value_lt := Nat.lt_of_le_of_lt (Nat.sub_le _ _) n.highest.value_lt }
  | .v6 => n.highest

end Network

end AddressPool
