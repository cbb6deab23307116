/-!
# Numbers in text

Numbers are written in a base of at most sixteen, most significant digit first and in lower case,
and read back with a limit on the count of digits and on the value.
-/

namespace AddressPool.Text

/-- The value of a digit of the given base; letters count in either case. -/
def digit? (base : Nat) (c : Char) : Option Nat :=
  let n := c.toNat
  let value :=
    if 48 ≤ n ∧ n ≤ 57 then n - 48
    else if 97 ≤ n ∧ n ≤ 102 then n - 87
    else if 65 ≤ n ∧ n ≤ 70 then n - 55
    else base
  if value < base then some value else none

/-- The number that a list of digits stands for, none if one of them is no digit. -/
def ofDigits? (base : Nat) (cs : List Char) : Option Nat :=
  cs.foldlM (fun acc c => (digit? base c).map (base * acc + ·)) 0

/-- The number below `bound` that one to `most` digits stand for. -/
def number? (base most bound : Nat) (cs : List Char) : Option Nat :=
  if cs.isEmpty || most < cs.length then none
  else (ofDigits? base cs).filter (· < bound)

def digits (base n : Nat) : List Char :=
  Nat.toDigits base n

def decimal (n : Nat) : String :=
  String.ofList (digits 10 n)

end AddressPool.Text
