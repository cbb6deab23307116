import AddressPool.Arguments
import AddressPool.Config.Json

/-!
# Setups

A setup is a configuration that was found to make sense, together with the addresses that a call
asks for.  Its sets are in canonical form, no two of them share an address, and there are as few of
them as the version of the format can carry.
-/

namespace AddressPool

/-- What one call works with. -/
structure Setup where
  name : String
  version : String
  kind : String
  routes : List Route
  dataDir? : Option String
  resolverFile? : Option String
  sets : List RangeSet
  requested : List Address

namespace Setup

def singleAddressVersions : List String :=
  ["", "0.1.0", "0.2.0"]

def addresses : List String → Except Error (List Address)
  | [] => .ok []
  | text :: texts =>
    match Address.read? text with
    | none => .error (.badAddress text)
    | some a => do return a :: (← addresses texts)

/-- The canonical forms of sets, of which the first has the given number. -/
def canonicalSets : (number : Nat) → List RangeSet → Except Error (List RangeSet)
  | _, [] => .ok []
  | number, s :: sets =>
    match s.canonical with
    | .error e => .error (.invalidSet number e)
    | .ok s => do return s :: (← canonicalSets (number + 1) sets)

def tooMany (version : String) (sets : List RangeSet) : Bool :=
  let short := sets.countP (·.isV4)
  (1 < short || 1 < sets.length - short) && singleAddressVersions.contains version

def firstOverlap? (sets : List RangeSet) : Option (Nat × Nat) :=
  (RangeSet.pairs sets.length).find? fun (i, j) =>
    match sets[i]?, sets[j]? with
    | some s, some t => s.overlaps t
    | _, _ => false

/-- A path that is given; the empty one is none. -/
def given (path? : Option String) : Option String :=
  path?.filter (!·.isEmpty)

/-- The setup of a configuration and the arguments of a call, or the first thing that is wrong with
them. -/
def ofConfig (config : Config) (arguments : String) : Except Error Setup := do
  let some part := config.ipam? | throw .missingSection
  let first? ← Arguments.requested arguments
  let others ← addresses config.wished
  let sets := config.allSets part
  if sets.isEmpty then throw .noRanges
  let sets ← canonicalSets 0 sets
  if tooMany config.version sets then throw (.tooManyAddresses config.version)
  if let some (i, j) := firstOverlap? sets then throw (.setsOverlap i j)
  return {
    name := config.name
    version := config.version
    kind := part.kind
    routes := part.routes
    dataDir? := given part.dataDir?
    resolverFile? := given part.resolverFile?
    sets := sets
    requested := first?.toList ++ others }

def load (bytes : Json.Bytes) (arguments : String) : Except Error Setup :=
  match Config.codec.decode bytes with
  | .error category => .error (.json category)
  | .ok config => ofConfig config arguments

end Setup

end AddressPool
