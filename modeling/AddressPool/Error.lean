import AddressPool.Address.Text
import AddressPool.Json.Scan
import AddressPool.Network.Text

/-!
# Errors

Everything that can go wrong with a pool, as causes.  The wording of each stands in `Error.message`
alone, or, where several causes share a kind, in the definition that names the cause.
-/

namespace AddressPool

/-- Why a configuration is refused or an operation on a pool fails. -/
inductive Error where
  | config (reason : String)
  | overlap (first second : Nat) (firstRange secondRange : String)
  | bounds (reason : String)
  | notInSet (address : Address) (set : String)
  | conflict (reason : String)
  | exhausted (set : String)
  | noLastReserved (setId : Nat)
  | storage (context cause : String)
  | rollback (setId : Nat) (owner : String) (cause : Error)
  | allocation (setId : Nat) (cause : Error)
  | unmatched (addresses : List Address)
  | release (causes : List String)
  | badAddress (text : String)
  | json (category : Json.Category)
  deriving Inhabited

namespace Error

/-- The text of an error. -/
def message : Error → String
  | config reason => reason
  | overlap _ _ firstRange secondRange => s!"subnets {firstRange} and {secondRange} overlap"
  | bounds reason => reason
  | notInSet address set => s!"{address} not in range set {set}"
  | conflict reason => reason
  | exhausted set => s!"no IP addresses available in range set {set}"
  | noLastReserved setId => s!"no last reserved IP for range set {setId}"
  | storage context cause => s!"{context}: {cause}"
  | rollback setId owner cause =>
    s!"failed to release range set {setId} for {owner}: " ++ cause.message
  | allocation setId cause => s!"failed to allocate for range {setId}: " ++ cause.message
  | unmatched addresses =>
    "failed to allocate all requested IPs: " ++ " ".intercalate (addresses.map Address.text)
  | release causes => ";".intercalate causes
  | badAddress text => s!"cannot understand ip: {text}"
  | json category => category.text

instance : ToString Error := ⟨message⟩

/-! ### Bounds -/

/-- A subnet has no room for hosts beside its lowest and highest address. -/
def tooSmall (subnet : Network) : Error :=
  bounds s!"Network {subnet} too small to allocate from"

def gatewayOutside (gateway : Address) (subnet : Network) : Error :=
  bounds s!"gateway {gateway} not in network {subnet}"

def startOutside (start : Address) (subnet : Network) : Error :=
  bounds s!"RangeStart {start} not in network {subnet}"

def endOutside (last : Address) (subnet : Network) : Error :=
  bounds s!"RangeEnd {last} not in network {subnet}"

/-- The last address of a range is the one that reaches all hosts. -/
def endIsBroadcast (last : Address) (subnet : Network) : Error :=
  bounds s!"RangeEnd {last} is the broadcast address of {subnet}"

def startAfterEnd (start last : Address) : Error :=
  bounds s!"RangeStart {start} is after RangeEnd {last}"

/-- An address cannot have as many leading bits in common as the subnet says. -/
def prefixTooLong (address : Address) : Error :=
  bounds s!"invalid prefix for {address}: invalid IP prefix length"

/-! ### Conflicts -/

def requestedGateway (address : Address) : Error :=
  conflict s!"requested ip {address} is subnet's gateway"

def requestedTaken (address : Address) (set : String) : Error :=
  conflict s!"requested IP address {address} is not available in range set {set}"

/-! ### Configurations -/

/-- A set without ranges. -/
def emptySet : Error :=
  config "empty range set"

def mixedFamilies : Error :=
  config "mixed address families"

def missingSection : Error :=
  config "IPAM config missing 'ipam' key"

def noRanges : Error :=
  config "no IP ranges specified"

/-- A set of a configuration is refused. -/
def invalidSet (setId : Nat) (cause : Error) : Error :=
  config (s!"invalid range set {setId}: " ++ cause.message)

def tooManyAddresses (version : String) : Error :=
  config s!"CNI version {version} does not support more than 1 address per family"

/-- Two sets of a configuration share addresses. -/
def setsOverlap (first second : Nat) : Error :=
  config s!"range set {first} overlaps with {second}"

end Error

end AddressPool
