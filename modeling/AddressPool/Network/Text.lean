import AddressPool.Address.Text
import AddressPool.Network

/-!
# Networks as text

A network is written as an address, a slash and the number of shared bits.  It is read with the
lenient spelling of addresses, and the number may have leading zeros within two digits in the
shorter family and three in the longer.
-/

namespace AddressPool.Network

open AddressPool.Text

def text (n : Network) : String :=
  n.address.text ++ "/" ++ decimal n.length

instance : ToString Network := ⟨text⟩

def lengthDigits : Family → Nat
  | .v4 => 2
  | .v6 => 3

/-- The network that a list of characters spells. -/
def ofChars? (cs : List Char) : Option Network :=
  match cs.splitOn '/' with
  | [front, back] => do
    let address ← Address.ofChars? .lenient front
    let length ← number? 10 (lengthDigits address.family) (address.family.bits + 1) back
    of? address length
  | _ => none

def parse? (s : String) : Option Network :=
  ofChars? s.toList

end AddressPool.Network
