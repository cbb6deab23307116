import AddressPool.RangeSet

/-!
# The walk over a set

A walk visits the positions of a set, which are its members' addresses: upwards through a member,
from its end to the start of the next one, and from the end of the last member to the start of the
first.  It is over when it is back where it began.

A walk is lazy: it holds the position visited last and the one visited first, and nothing of the
addresses in between.  Positions that are the gateway of their member are visited but not offered as
candidates.
-/

namespace AddressPool

/-- An address seen as one of a member of a set. -/
structure Position (s : RangeSet) where
  member : Fin s.length
  address : Address
  deriving DecidableEq

namespace Position

variable {s : RangeSet}

def range (p : Position s) : Range :=
  s.member p.member

def startOf (s : RangeSet) (i : Fin s.length) : Position s :=
  ⟨i, (s.member i).start⟩

def nextMember (i : Fin s.length) : Fin s.length :=
  ⟨(i + 1) % s.length, Nat.mod_lt _ (Nat.zero_lt_of_lt i.isLt)⟩

/-- The position after this one: the next address up to the end of the member and of the address
space, then the start of the next member. -/
def next (p : Position s) : Position s :=
  match p.address.next? with
  | some a => if p.address < p.range.last then ⟨p.member, a⟩ else startOf s (nextMember p.member)
  | none => startOf s (nextMember p.member)

def isGateway (p : Position s) : Bool :=
  p.address == p.range.gateway

end Position

namespace RangeSet

/-- The first position of a set, none if it is empty. -/
def origin? (s : RangeSet) : Option (Position s) :=
  if h : 0 < s.length then some (Position.startOf s ⟨0, h⟩) else none

/-- A bound on the positions of a set: each member with each address there is. -/
def positionBound (s : RangeSet) : Nat :=
  s.length * (Family.v4.size + Family.v6.size)

end RangeSet

/-- Where a walk over a set stands. -/
structure Walk (s : RangeSet) where
  here? : Option (Position s)
  first? : Option (Position s)

namespace Walk

variable {s : RangeSet}

/-- A walk from the start of the first member. -/
def fresh (s : RangeSet) : Walk s :=
  ⟨none, none⟩

/-- A walk from the position after an address, or a fresh one if the address is not in the set. -/
def after (s : RangeSet) (a? : Option Address) : Walk s :=
  match a? with
  | none => fresh s
  | some a =>
    match s.find? a.canonical with
    | none => fresh s
    | some i => ⟨some ⟨i, a.canonical⟩, none⟩

/-- Visits the next position, none if the walk is over. -/
def visit (w : Walk s) : Option (Position s) × Walk s :=
  match w.here? with
  | none =>
    match s.origin? with
    | none => (none, w)
    | some p => (some p, ⟨some p, some p⟩)
  | some here =>
    let p := here.next
    match w.first? with
    | none => (some p, ⟨some p, some p⟩)
    | some first => if first = p then (none, w) else (some p, ⟨some p, w.first?⟩)

/-- Visits positions until one is no gateway, at most as many as given. -/
def visitCandidate : Nat → Walk s → Option (Position s) × Walk s
  | 0, w => (none, w)
  | most + 1, w =>
    match w.visit with
    | (none, w) => (none, w)
    | (some p, w) => if p.isGateway then visitCandidate most w else (some p, w)

/-- The next candidate, none if the walk is over.

A member has one gateway, so a gateway is followed by a candidate or by the start of the next
member; after as many gateways in a row as there are members the walk is back at the first of
them. -/
def next (w : Walk s) : Option (Position s) × Walk s :=
  visitCandidate (s.length + 1) w

/-- The first candidates of a walk, at most as many as given, with whether they are all and the walk
behind them. -/
def take : Nat → Walk s → List (Position s) × Bool × Walk s
  | 0, w => ([], false, w)
  | most + 1, w =>
    match w.next with
    | (none, w) => ([], true, w)
    | (some p, w) =>
      let (ps, rest) := take most w
      (p :: ps, rest)

end Walk

end AddressPool
