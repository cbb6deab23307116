import AddressPool.Json.Codec
import AddressPool.RangeSet

/-!
# Ranges in JSON

Addresses and networks are strings; a range is an object of them and a set an array of ranges.
-/

namespace AddressPool

open AddressPool.Json (Codec)

def Address.codec : Codec Address :=
  .spelled Address.parse? Address.text

def Network.codec : Codec Network :=
  .spelled Network.parse? Network.text

namespace Range

def blank : Range where
  subnet := default

def fields : List (Json.Field Range) :=
  [.optional "rangeStart" Address.codec (·.start?) fun v r => { r with start? := v },
   .optional "rangeEnd" Address.codec (·.last?) fun v r => { r with last? := v },
   .mandatory "subnet" Network.codec (·.subnet) fun v r => { r with subnet := v },
   .optional "gateway" Address.codec (·.gateway?) fun v r => { r with gateway? := v }]

def codec : Codec Range :=
  .record blank fields

end Range

/-- Sets of ranges as arrays. -/
def RangeSet.codec : Codec RangeSet :=
  (Codec.list Range.codec).wrap .mk (·.members)

end AddressPool
