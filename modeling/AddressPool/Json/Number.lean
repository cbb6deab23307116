import AddressPool.Json.Scan

/-!
# Numbers where text is wanted

No part of a configuration is a number, so a number is always of the wrong shape; but it must be a
number to be that.  It has to be well formed, and its magnitude must not leave the range of double
precision.

The magnitude is that of the leading digits, as many as fit into 64 bits, times a power of ten; both
factors are rounded to 53 bits before they are multiplied.
-/

namespace AddressPool.Json

/-- A number rounded to its 53 leading bits, a half going to the even neighbour. -/
def round53 (n : Nat) : Nat :=
  let spare := n.log2 + 1 - 53
  let unit := Nat.pow 2 spare
  let low := n / unit * unit
  let rest := n - low
  if 2 * rest < unit then low
  else if unit < 2 * rest then low + unit
  else if n / unit % 2 = 0 then low
  else low + unit

/-- The least magnitude that no longer rounds to a number of double precision. -/
def doubleBound : Nat :=
  Nat.pow 2 1024 - Nat.pow 2 970

/-- Whether some leading digits and a power of ten are out of the range of double precision. -/
def outOfRange (significand : Nat) (exponent : Int) : Bool :=
  significand != 0 && 0 ≤ exponent &&
    (308 < exponent || doubleBound ≤ round53 significand * round53 (Nat.pow 10 exponent.toNat))

def digitsAtFront (bs : Bytes) : List Nat :=
  (bs.takeWhile isDigitByte).map fun b => b.toNat - 48

/-- Takes up digits as long as the number made of them stays below `2 ^ 64`; answers with that
number and with the count of the digits that were taken up. -/
def takeDigits (significand : Nat) : List Nat → Nat × Nat
  | [] => (significand, 0)
  | d :: ds =>
    if significand * 10 + d < Nat.pow 2 64 then
      let (n, count) := takeDigits (significand * 10 + d) ds
      (n, count + 1)
    else (significand, 0)

def digitsRequired : Scan (List Nat) := fun bs =>
  match bs with
  | [] => .error .truncated
  | b :: _ =>
    if isDigitByte b then .ok (digitsAtFront bs, skipDigits bs) else .error .malformed

/-- The exponent of a number, zero if there is none. -/
def exponent : Scan Int := fun bs =>
  match bs with
  | e :: rest =>
    if e = ascii 'e' ∨ e = ascii 'E' then do
      let (negative, rest) :=
        match rest with
        | s :: rest' =>
          if s = ascii '-' then (true, rest')
          else if s = ascii '+' then (false, rest')
          else (false, rest)
        | [] => (false, rest)
      let (ds, rest) ← digitsRequired rest
      let n : Nat := ds.foldl (fun acc d => acc * 10 + d) 0
      .ok (if negative then -(n : Int) else n, rest)
    else .ok (0, bs)
  | [] => .ok (0, bs)

def fraction : Scan (List Nat) := fun bs =>
  match bs with
  | p :: rest => if p = ascii '.' then digitsRequired rest else .ok ([], bs)
  | [] => .ok ([], bs)

/-- Takes a number off the front, its sign apart. -/
def number : Scan Unit := fun bs => do
  let (whole, rest) ← digitsRequired bs
  if whole.head? = some 0 ∧ whole.length ≠ 1 then .error .malformed
  let (places, rest) ← fraction rest
  let (shift, rest) ← exponent rest
  let (front, kept) := takeDigits 0 whole
  let (significand, keptPlaces) := takeDigits front places
  let scale : Int := (whole.length - kept : Nat) - (keptPlaces : Int) + shift
  if outOfRange significand scale then .error .malformed else .ok ((), rest)

/-- The kind of problem with a value whose shape is not the wanted one; its first byte is given. -/
def wrongShape (b : UInt8) (rest : Bytes) : Category :=
  let outcome : Except Category (Unit × Bytes) :=
    if b = ascii 'n' then literal [ascii 'u', ascii 'l', ascii 'l'] rest
    else if b = ascii 't' then literal [ascii 'r', ascii 'u', ascii 'e'] rest
    else if b = ascii 'f' then literal [ascii 'a', ascii 'l', ascii 's', ascii 'e'] rest
    else if b = ascii '-' then number rest
    else if isDigitByte b then number (b :: rest)
    else if b = ascii '"' then (stringRest rest).map fun (_, rest) => ((), rest)
    else if b = ascii '[' ∨ b = ascii '\x7b' then .ok ((), rest)
    else .error .malformed
  match outcome with
  | .ok _ => .mismatch
  | .error e => e

end AddressPool.Json
