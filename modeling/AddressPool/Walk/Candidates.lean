import AddressPool.Walk

/-!
# The candidates of a set

The addresses that a set can give, all at once: member by member, upwards, without the gateways.
What a walk offers one by one is this list, rotated so that it begins after the address at which the
walk resumes.
-/

namespace AddressPool

namespace RangeSet

def memberPositions (s : RangeSet) (i : Fin s.length) : List (Position s) :=
  let r := s.member i
  (List.range (r.last.value + 1 - r.start.value)).map fun k =>
    ⟨i, Address.ofNat r.start.family (r.start.value + k)⟩

def positions (s : RangeSet) : List (Position s) :=
  (List.finRange s.length).flatMap s.memberPositions

def candidates (s : RangeSet) : List (Position s) :=
  s.positions.filter fun p => !p.isGateway

/-- The positions of a set in the order of a walk that resumes after an address: those behind it,
and then those up to it. -/
def positionsAfter (s : RangeSet) (a? : Option Address) : List (Position s) :=
  match a?.bind fun a => (s.find? a).map (Position.mk · a.canonical) with
  | none => s.positions
  | some here =>
    let upTo (p : Position s) : Bool :=
      p.member < here.member || (p.member == here.member && p.address ≤ here.address)
    s.positions.filter (fun p => !upTo p) ++ s.positions.filter upTo

/-- The candidates of a set in the order of a walk that resumes after an address. -/
def candidatesAfter (s : RangeSet) (a? : Option Address) : List (Position s) :=
  (s.positionsAfter a?).filter fun p => !p.isGateway

end RangeSet

end AddressPool
