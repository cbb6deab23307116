import AddressPool.Lease
import AddressPool.RangeSet

/-!
# Configurations

A configuration as it is written: the name of a network, the version of the format that its grants
are wanted in, and a section on address management.  Besides, the runtime may add sets of ranges of
its own, and arguments that ask for addresses.
-/

namespace AddressPool

/-- The section on address management. -/
structure Section where
  kind : String := ""
  subnet? : Option Network := none
  start? : Option Address := none
  last? : Option Address := none
  gateway? : Option Address := none
  sets : List RangeSet := []
  routes : List Route := []
  dataDir? : Option String := none
  resolverFile? : Option String := none
  deriving DecidableEq, Repr

/-- What the runtime adds to a configuration. -/
structure Runtime where
  sets : List RangeSet := []
  deriving DecidableEq, Repr

/-- Arguments for address management. -/
structure Wishes where
  addresses : List String := []
  deriving DecidableEq, Repr

/-- Arguments, by what they are for. -/
structure Extras where
  wishes? : Option Wishes := none
  deriving DecidableEq, Repr

/-- A configuration as it is written. -/
structure Config where
  name : String := ""
  version : String := ""
  ipam? : Option Section := none
  runtime : Runtime := {}
  extras? : Option Extras := none
  deriving DecidableEq, Repr

namespace Section

/-- The set of the one range that is given without a set around it, if it is. -/
def single? (s : Section) : Option RangeSet :=
  s.subnet?.map fun subnet =>
    ⟨[{ start? := s.start?, last? := s.last?, subnet := subnet, gateway? := s.gateway? }]⟩

end Section

namespace Config

/-- The addresses that the arguments of a configuration ask for, as texts. -/
def wished (c : Config) : List String :=
  ((c.extras?.bind (·.wishes?)).map (·.addresses)).getD []

/-- All sets: those of the runtime, the range that stands alone, and those of the section. -/
def allSets (c : Config) (s : Section) : List RangeSet :=
  c.runtime.sets ++ s.single?.toList ++ s.sets

end Config

end AddressPool
