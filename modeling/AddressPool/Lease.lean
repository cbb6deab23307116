import AddressPool.Network.Text

/-!
# What an allocation gives

A lease is an address as it is handed to its owner: with the number of bits it shares with its
subnet, and with the gateway of that subnet.  A grant is everything that one call for addresses
comes to: the leases with the routes and the resolver settings that go with them.
-/

namespace AddressPool

/-- An address handed to an owner. -/
structure Lease where
  version : String
  address : Network
  gateway : Address
  deriving DecidableEq, Repr

/-- A way to a network, by a gateway of its own or by that of the lease. -/
structure Route where
  destination : Network
  gateway? : Option Address := none
  deriving DecidableEq, Repr

/-- Where names are looked up. -/
structure Resolver where
  nameservers : List String := []
  domain : String := ""
  search : List String := []
  options : List String := []
  deriving DecidableEq, Repr

def Resolver.isEmpty (r : Resolver) : Bool :=
  r.nameservers.isEmpty && r.domain.isEmpty && r.search.isEmpty && r.options.isEmpty

/-- Everything that a call for addresses comes to. -/
structure Grant where
  version : String := ""
  leases : List Lease := []
  routes : List Route := []
  resolver : Resolver := {}
  deriving DecidableEq, Repr

end AddressPool
