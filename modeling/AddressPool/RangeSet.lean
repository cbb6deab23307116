import AddressPool.Range

/-!
# Sets of ranges

A set of ranges is one pool of addresses.  Its order matters: an address belongs to the first member
that contains it, and addresses are handed out member by member.

A set that is in use has members of one family that share no address, which `RangeSet.canonicalize`
establishes or refuses.  It too answers with the changed set beside the verdict.
-/

namespace AddressPool

/-- Ranges in the order in which their addresses are handed out. -/
structure RangeSet where
  members : List Range
  deriving DecidableEq, Repr

namespace RangeSet

def length (s : RangeSet) : Nat :=
  s.members.length

def member (s : RangeSet) (i : Fin s.length) : Range :=
  s.members.get i

def text (s : RangeSet) : String :=
  ",".intercalate (s.members.map Range.text)

instance : ToString RangeSet := ⟨text⟩

def find? (s : RangeSet) (a : Address) : Option (Fin s.length) :=
  s.members.findFinIdx? (·.contains a.canonical)

/-- The place of the first member that contains an address, or why there is none. -/
def lookup (s : RangeSet) (a : Address) : Except Error (Fin s.length) :=
  match s.find? a with
  | some i => .ok i
  | none => .error (.notInSet a.canonical s.text)

def contains (s : RangeSet) (a : Address) : Bool :=
  (s.find? a).isSome

def overlaps (s t : RangeSet) : Bool :=
  s.members.any fun r => t.members.any r.overlaps

/-- The family of a set, which is that of its first member; none if it is empty. -/
def family? (s : RangeSet) : Option Family :=
  s.members.head?.map (·.start.family)

def isV4 (s : RangeSet) : Bool :=
  s.family? == some .v4

/-! ### Canonical form -/

/-- Puts ranges into canonical form one after the other, up to the first one that is refused. -/
def canonicalizeMembers : List Range → Except Error Unit × List Range
  | [] => (.ok (), [])
  | r :: rs =>
    match r.canonicalize with
    | (.error e, r) => (.error e, r :: rs)
    | (.ok _, r) =>
      let (verdict, rs) := canonicalizeMembers rs
      (verdict, r :: rs)

def oneFamily (s : RangeSet) : Bool :=
  s.members.all fun r => some r.start.family == s.family?

/-- The pairs of places `i < j` below `n`, in lexicographic order. -/
def pairs (n : Nat) : List (Nat × Nat) :=
  (List.range n).flatMap fun i => (List.range' (i + 1) (n - (i + 1))).map (i, ·)

/-- The error of the first pair of members that overlap, if there is one. -/
def firstOverlap? (s : RangeSet) : Option Error :=
  (pairs s.length).findSome? fun (i, j) =>
    match s.members[i]?, s.members[j]? with
    | some r, some t => if r.overlaps t then some (.overlap i j r.text t.text) else none
    | _, _ => none

/-- Puts a set into canonical form, with the verdict whether it is one. -/
def canonicalize (s : RangeSet) : Except Error Unit × RangeSet :=
  if s.members.isEmpty then (.error .emptySet, s)
  else
    let (verdict, members) := canonicalizeMembers s.members
    let s : RangeSet := ⟨members⟩
    match verdict with
    | .error e => (.error e, s)
    | .ok _ =>
      if !s.oneFamily then (.error .mixedFamilies, s)
      else
        match s.firstOverlap? with
        | some e => (.error e, s)
        | none => (.ok (), s)

/-- The canonical form of a set, or why it is refused. -/
def canonical (s : RangeSet) : Except Error RangeSet :=
  match s.canonicalize with
  | (.ok _, s) => .ok s
  | (.error e, _) => .error e

end RangeSet

end AddressPool
