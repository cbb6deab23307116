import AddressPool.Lease
import AddressPool.Range.Json

/-!
# Grants in JSON

The members of leases, routes, resolver settings and grants, in the order in which they are written.
Lists and texts that are empty are left out, with the exception of the leases of a grant.
-/

namespace AddressPool

open AddressPool.Json (Codec)

namespace Lease

def fields : List (Json.Field Lease) :=
  [.mandatory "version" .string (·.version) fun v l => { l with version := v },
   .mandatory "address" Network.codec (·.address) fun v l => { l with address := v },
   .mandatory "gateway" Address.codec (·.gateway) fun v l => { l with gateway := v }]

def codec : Codec Lease :=
  .record ⟨"", default, default⟩ fields

end Lease

namespace Route

def fields : List (Json.Field Route) :=
  [.mandatory "dst" Network.codec (·.destination) fun v r => { r with destination := v },
   .optional "gw" Address.codec (·.gateway?) fun v r => { r with gateway? := v }]

def codec : Codec Route :=
  .record ⟨default, none⟩ fields

end Route

namespace Resolver

/-- The members of resolver settings. -/
def fields : List (Json.Field Resolver) :=
  [.defaulted "nameservers" (.list .string) List.isEmpty (·.nameservers)
      fun v r => { r with nameservers := v },
   .defaulted "domain" .string String.isEmpty (·.domain) fun v r => { r with domain := v },
   .defaulted "search" (.list .string) List.isEmpty (·.search) fun v r => { r with search := v },
   .defaulted "options" (.list .string) List.isEmpty (·.options)
      fun v r => { r with options := v }]

def codec : Codec Resolver :=
  .record {} fields

end Resolver

namespace Grant

/-- The members of a grant. -/
def fields : List (Json.Field Grant) :=
  [.mandatory "cniVersion" .string (·.version) fun v g => { g with version := v },
   .defaulted "ips" (.list Lease.codec) (fun _ => false) (·.leases)
      fun v g => { g with leases := v },
   .defaulted "routes" (.list Route.codec) List.isEmpty (·.routes)
      fun v g => { g with routes := v },
   .defaulted "dns" Resolver.codec Resolver.isEmpty (·.resolver)
      fun v g => { g with resolver := v }]

def codec : Codec Grant :=
  .record {} fields

end Grant

end AddressPool
