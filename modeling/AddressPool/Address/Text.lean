import AddressPool.Address
import AddressPool.Text.Blank
import AddressPool.Text.Number

/-!
# Addresses as text

The shorter family is written as four octets between dots.  The longer one is written as eight
groups between colons, in lower case and without leading zeros, and the leftmost of the longest
runs of at least two zero groups is written `::`; an address that stands for a shorter one ends in
its four octets.

Reading takes any spelling of the same grammar.  Two conventions are in use and differ in two
points, which `Spelling` names: addresses proper are read strictly, addresses inside a network
leniently.
-/

namespace AddressPool.Address

open AddressPool.Text

/-! ### Words of a number -/

/-- The last `count` digits of a number in the given base, most significant first. -/
def words (base : Nat) : (count n : Nat) → List Nat
  | 0, _ => []
  | count + 1, n => words base count (n / base) ++ [n % base]

/-- The number whose digits in the given base are listed, most significant first. -/
def ofWords (base : Nat) (ws : List Nat) : Nat :=
  ws.foldl (fun acc w => base * acc + w) 0

@[simp]
theorem length_words (base count n : Nat) : (words base count n).length = count := by
  induction count generalizing n with
  | zero => rfl
  | succ count ih => simp [words, ih]

/-! ### Writing -/

def dotted (n : Nat) : List Char :=
  ['.'].intercalate ((words 256 4 n).map (digits 10))

def colons (groups : List Nat) : List Char :=
  [':'].intercalate (groups.map (digits 16))

def zerosAtFront (groups : List Nat) : Nat :=
  (groups.takeWhile (· == 0)).length

/-- Where the leftmost of the longest runs of zeros begins, and how long it is. -/
def longestZeros (groups : List Nat) : Nat × Nat :=
  (List.range groups.length).foldl
    (fun best i =>
      let count := zerosAtFront (groups.drop i)
      if best.2 < count then (i, count) else best)
    (0, 0)

/-- Groups between colons, with the longest run of at least two zeros left out. -/
def compressed (groups : List Nat) : List Char :=
  let (start, count) := longestZeros groups
  if 2 ≤ count then
    colons (groups.take start) ++ [':', ':'] ++ colons (groups.drop (start + count))
  else colons groups

/-- The characters an address is written with. -/
def chars (a : Address) : List Char :=
  match a.family with
  | .v4 => dotted a.value
  | .v6 =>
    match a.mapped? with
    | some short => "::ffff:".toList ++ dotted short.value
    | none => compressed (words 65536 8 a.value)

def text (a : Address) : String :=
  String.ofList a.chars

instance : ToString Address := ⟨text⟩

/-! ### Reading -/

/-- The two points in which conventions for reading an address differ. -/
structure Spelling where
  leadingZeros : Bool
  emptyGap : Bool

/-- How an address proper is read. -/
def Spelling.strict : Spelling := ⟨false, false⟩

/-- How the address of a network is read. -/
def Spelling.lenient : Spelling := ⟨true, true⟩

def octet? (sp : Spelling) (cs : List Char) : Option Nat :=
  if !sp.leadingZeros && cs.head? == some '0' && cs.length != 1 then none
  else number? 10 3 256 cs

def dotted? (sp : Spelling) (cs : List Char) : Option Nat :=
  match cs.splitOn '.' with
  | [a, b, c, d] => (([a, b, c, d].mapM (octet? sp)).map (ofWords 256))
  | _ => none

def group? (cs : List Char) : Option Nat :=
  number? 16 4 65536 cs

/-- The groups that a list of pieces stands for, where the last piece may be four octets if
`tail` says so and then counts as two groups. -/
def groups? (sp : Spelling) (tail : Bool) : List (List Char) → Option (List Nat)
  | [] => some []
  | [piece] =>
    match dotted? sp piece with
    | some n => if tail then some (words 65536 2 n) else none
    | none => (group? piece).map ([·])
  | piece :: pieces => do return (← group? piece) :: (← groups? sp tail pieces)

/-- The pieces of a text between colons; the empty text has none. -/
def pieces (cs : List Char) : List (List Char) :=
  if cs.isEmpty then [] else cs.splitOn ':'

/-- The texts before and after the first `::`. -/
def splitGap : List Char → Option (List Char × List Char)
  | [] => none
  | [_] => none
  | c :: d :: cs =>
    if c = ':' ∧ d = ':' then some ([], cs)
    else (splitGap (d :: cs)).map fun (front, back) => (c :: front, back)

/-- The eight groups of an address of the longer family. -/
def eightGroups? (sp : Spelling) (cs : List Char) : Option (List Nat) :=
  match splitGap cs with
  | none => (groups? sp true (pieces cs)).filter (·.length == 8)
  | some (front, back) => do
    let front ← groups? sp false (pieces front)
    let back ← groups? sp true (pieces back)
    let count := front.length + back.length
    if front.length < 8 && (count < 8 || (sp.emptyGap && count == 8)) then
      return front ++ List.replicate (8 - count) 0 ++ back
    else none

def ofChars? (sp : Spelling) (cs : List Char) : Option Address :=
  match dotted? sp cs with
  | some n => some (ofNat .v4 n)
  | none => (eightGroups? sp cs).map fun groups => ofNat .v6 (ofWords 65536 groups)

def parse? (s : String) : Option Address :=
  ofChars? .strict s.toList

/-- The canonical form of the address that a text spells, blanks around it apart. -/
def read? (s : String) : Option Address :=
  (ofChars? .strict (trimmed s.toList)).map canonical

end AddressPool.Address
