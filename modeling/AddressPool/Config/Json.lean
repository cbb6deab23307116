import AddressPool.Config
import AddressPool.Lease.Json

/-!
# Configurations in JSON

The members of a configuration and its parts, in the order in which they are written.
-/

namespace AddressPool

open AddressPool.Json (Codec)

namespace Section

/-- The members of the section on address management. -/
def fields : List (Json.Field Section) :=
  [.defaulted "type" .string (fun _ => false) (·.kind) fun v s => { s with kind := v },
   .optional "subnet" Network.codec (·.subnet?) fun v s => { s with subnet? := v },
   .optional "rangeStart" Address.codec (·.start?) fun v s => { s with start? := v },
   .optional "rangeEnd" Address.codec (·.last?) fun v s => { s with last? := v },
   .optional "gateway" Address.codec (·.gateway?) fun v s => { s with gateway? := v },
   .defaulted "ranges" (.list RangeSet.codec) (fun _ => false) (·.sets)
      fun v s => { s with sets := v },
   .defaulted "routes" (.list Route.codec) (fun _ => false) (·.routes)
      fun v s => { s with routes := v },
   .optional "dataDir" .string (·.dataDir?) fun v s => { s with dataDir? := v },
   .optional "resolvConf" .string (·.resolverFile?) fun v s => { s with resolverFile? := v }]

def codec : Codec Section :=
  .record {} fields

end Section

namespace Runtime

def fields : List (Json.Field Runtime) :=
  [.defaulted "ipRanges" (.list RangeSet.codec) List.isEmpty (·.sets)
      fun v r => { r with sets := v }]

def codec : Codec Runtime :=
  .record {} fields

end Runtime

namespace Wishes

def fields : List (Json.Field Wishes) :=
  [.defaulted "ips" (.list .string) (fun _ => false) (·.addresses)
      fun v w => { w with addresses := v }]

def codec : Codec Wishes :=
  .record {} fields

end Wishes

namespace Extras

def fields : List (Json.Field Extras) :=
  [.optional "cni" Wishes.codec (·.wishes?) fun v e => { e with wishes? := v }]

def codec : Codec Extras :=
  .record {} fields

end Extras

namespace Config

/-- The members of a configuration. -/
def fields : List (Json.Field Config) :=
  [.defaulted "name" .string (fun _ => false) (·.name) fun v c => { c with name := v },
   .defaulted "cniVersion" .string (fun _ => false) (·.version) fun v c => { c with version := v },
   .optional "ipam" Section.codec (·.ipam?) fun v c => { c with ipam? := v },
   .defaulted "runtimeConfig" Runtime.codec (fun _ => false) (·.runtime)
      fun v c => { c with runtime := v },
   .optional "args" Extras.codec (·.extras?) fun v c => { c with extras? := v }]

def codec : Codec Config :=
  .record {} fields

end Config

end AddressPool
