import AddressPool.Text.Number

/-!
# Writing JSON

The values that the library writes: strings, arrays and objects whose members keep the order in
which they are listed.  One printer serves every layout; a layout says which blanks stand between
the parts of a value, and only blanks can stand there.
-/

namespace AddressPool

/-- A JSON value made of strings, arrays and objects. -/
inductive Json where
  | string (s : String)
  | array (items : List Json)
  | object (members : List (String × Json))

namespace Json

open AddressPool.Text

def isGap (c : Char) : Bool :=
  c == ' ' || c == '\n' || c == '\t' || c == '\r'

/-- The blanks that stand before a part at some depth, and between a member's colon and its value.
-/
structure Layout where
  gap : Nat → List Char
  afterColon : List Char
  gap_blank : ∀ depth, (gap depth).all isGap = true
  afterColon_blank : afterColon.all isGap = true

def Layout.compact : Layout where
  gap _ := []
  afterColon := []
  gap_blank _ := rfl
  afterColon_blank := rfl

/-- Each part on a line of its own, two spaces further in than what it is part of. -/
def Layout.pretty : Layout where
  gap depth := '\n' :: List.replicate (2 * depth) ' '
  afterColon := [' ']
  gap_blank depth := by
    simp [isGap, List.all_replicate]
  afterColon_blank := rfl

/-- How a character is written inside a string. -/
def escaped (c : Char) : List Char :=
  if c = '"' then ['\\', '"']
  else if c = '\\' then ['\\', '\\']
  else if c.toNat = 8 then ['\\', 'b']
  else if c.toNat = 9 then ['\\', 't']
  else if c.toNat = 10 then ['\\', 'n']
  else if c.toNat = 12 then ['\\', 'f']
  else if c.toNat = 13 then ['\\', 'r']
  else if c.toNat < 16 then ['\\', 'u', '0', '0', '0'] ++ digits 16 c.toNat
  else if c.toNat < 32 then ['\\', 'u', '0', '0'] ++ digits 16 c.toNat
  else [c]

def quoted (s : String) : List Char :=
  '"' :: s.toList.flatMap escaped ++ ['"']

mutual

/-- The characters of a value in a layout, at the given depth. -/
def chars (l : Layout) (depth : Nat) : Json → List Char
  | .string s => quoted s
  | .array [] => ['[', ']']
  | .array (item :: items) =>
    '[' :: l.gap (depth + 1) ++ chars l (depth + 1) item ++ itemChars l (depth + 1) items ++
      l.gap depth ++ [']']
  | .object [] => ['{', '}']
  | .object ((name, value) :: members) =>
    '{' :: l.gap (depth + 1) ++ quoted name ++ ':' :: l.afterColon ++
      chars l (depth + 1) value ++ memberChars l (depth + 1) members ++ l.gap depth ++ ['}']

def itemChars (l : Layout) (depth : Nat) : List Json → List Char
  | [] => []
  | item :: items => ',' :: l.gap depth ++ chars l depth item ++ itemChars l depth items

def memberChars (l : Layout) (depth : Nat) : List (String × Json) → List Char
  | [] => []
  | (name, value) :: members =>
    ',' :: l.gap depth ++ quoted name ++ ':' :: l.afterColon ++ chars l depth value ++
      memberChars l depth members

end

def render (l : Layout) (j : Json) : String :=
  String.ofList (chars l 0 j)

def compact (j : Json) : String :=
  j.render .compact

def pretty (j : Json) : String :=
  j.render .pretty

end Json

end AddressPool
