import AddressPool.Error

/-!
# Ranges

A range is a run of addresses of one subnet that may be handed out, with the gateway of that subnet.
Its bounds and its gateway need not be given: the accessors fall back on the first and the last host
of the subnet.

`Range.canonicalize` puts every address into canonical form, fills in what is missing and checks
that all of it fits.  It answers with the changed range beside the verdict, for a range that is
refused has been changed up to the point of refusal.
-/

namespace AddressPool

/-- A run of addresses in a subnet, with bounds and gateway that may be left open. -/
structure Range where
  start? : Option Address := none
  last? : Option Address := none
  subnet : Network
  gateway? : Option Address := none
  deriving DecidableEq, Repr

namespace Range

def start (r : Range) : Address :=
  r.start?.getD r.subnet.firstHost

def last (r : Range) : Address :=
  r.last?.getD r.subnet.lastHost

def gateway (r : Range) : Address :=
  r.gateway?.getD r.subnet.firstHost

def text (r : Range) : String :=
  s!"{r.start}-{r.last}"

instance : ToString Range := ⟨text⟩

/-- Whether the canonical form of an address lies in the subnet and within the bounds that are
given. -/
def contains (r : Range) (a : Address) : Bool :=
  let a := a.canonical
  r.subnet.contains a && r.start?.all (· ≤ a) && r.last?.all (a ≤ ·)

/-- Whether two ranges of one family have a bound that lies in the other. -/
def overlaps (r s : Range) : Bool :=
  r.start.family == s.start.family &&
    (r.contains s.start || r.contains s.last || s.contains r.start || s.contains r.last)

/-! ### Canonical form -/

/-- Whether the subnet leaves room for hosts beside its lowest and highest address. -/
def hasRoom (r : Range) : Bool :=
  r.subnet.length + 2 ≤ r.subnet.family.bits

/-- The range with the bounds and the gateway that are given put into canonical form. -/
def normalized (r : Range) : Range :=
  { r with
    start? := r.start?.map Address.canonical
    last? := r.last?.map Address.canonical
    gateway? := r.gateway?.map Address.canonical }

def checkedGateway (r : Range) : Except Error Address :=
  match r.gateway? with
  | none => .ok r.subnet.firstHost
  | some gateway =>
    if r.subnet.contains gateway then .ok gateway
    else .error (.gatewayOutside gateway r.subnet)

def checkedStart (r : Range) : Except Error Address :=
  match r.start? with
  | none => .ok r.subnet.firstHost
  | some start =>
    if r.contains start then .ok start else .error (.startOutside start r.subnet)

/-- The last address, which is in the range and not the broadcast address if it is given. -/
def checkedLast (r : Range) : Except Error Address :=
  match r.last? with
  | none => .ok r.subnet.lastHost
  | some last =>
    if !r.contains last then .error (.endOutside last r.subnet)
    else if r.subnet.broadcast? = some last then .error (.endIsBroadcast last r.subnet)
    else .ok last

/-- Puts a range into canonical form, with the verdict whether it is one. -/
def canonicalize (r : Range) : Except Error Unit × Range :=
  let r := { r with subnet := r.subnet.canonical }
  if !r.hasRoom then (.error (.tooSmall r.subnet), r)
  else
    let r := r.normalized
    match r.checkedGateway with
    | .error e => (.error e, r)
    | .ok gateway =>
      let r := { r with gateway? := some gateway }
      match r.checkedStart with
      | .error e => (.error e, r)
      | .ok start =>
        let r := { r with start? := some start }
        match r.checkedLast with
        | .error e => (.error e, r)
        | .ok last =>
          let r := { r with last? := some last }
          if r.last < r.start then (.error (.startAfterEnd r.start r.last), r)
          else (.ok (), r)

end Range

end AddressPool
