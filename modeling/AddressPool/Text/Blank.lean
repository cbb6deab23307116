/-!
# Blank characters

The characters with the White_Space property, and the three things that are done with them: a text
is trimmed at both ends, cut into words, or cut into lines.  All of it works on lists of
characters, so that a law is an induction over the text.
-/

namespace AddressPool.Text

/-- The characters of the White_Space property: the ASCII blanks, the next-line character, the
no-break and Ogham spaces, the typographic spaces and the two separators. -/
def isBlank (c : Char) : Bool :=
  let n := c.toNat
  (9 ≤ n && n ≤ 13) || n == 0x20 || n == 0x85 || n == 0xA0 || n == 0x1680 ||
    (0x2000 ≤ n && n ≤ 0x200A) || n == 0x2028 || n == 0x2029 || n == 0x202F || n == 0x205F ||
    n == 0x3000

def trimFront (cs : List Char) : List Char :=
  cs.dropWhile isBlank

def trimBack (cs : List Char) : List Char :=
  (trimFront cs.reverse).reverse

def trimmed (cs : List Char) : List Char :=
  trimBack (trimFront cs)

def trim (s : String) : String :=
  String.ofList (trimmed s.toList)

/-- The maximal runs of characters that are not blank, in order. -/
def words (cs : List Char) : List (List Char) :=
  (cs.splitOnP isBlank).filter fun word => !word.isEmpty

def lines (cs : List Char) : List (List Char) :=
  cs.splitOn '\n'

@[simp]
theorem trimFront_nil : trimFront [] = [] := rfl

theorem trimFront_cons (c : Char) (cs : List Char) :
    trimFront (c :: cs) = if isBlank c then trimFront cs else c :: cs := by
  by_cases hc : isBlank c <;> simp [trimFront, hc]

end AddressPool.Text
