/-!
# Texts in bytes

Files hold bytes, and their names are bytes.  A text stands there in UTF-8.  Bytes that stand for no
text are shown piece by piece: the characters in them, and between these what belongs to none.
-/

namespace AddressPool

def bytesOf (text : String) : List UInt8 :=
  text.toUTF8.data.toList

instance coeBytes : Coe String (List UInt8) := ⟨bytesOf⟩

def textOf? (bytes : List UInt8) : Option String :=
  String.fromUTF8? bytes.toByteArray

namespace Text

/-- A piece of some bytes: a character, or bytes that belong to none. -/
inductive Piece where
  | char (c : Char)
  | broken (bytes : List UInt8)

def firstChar? (bytes : List UInt8) : Option Char :=
  [1, 2, 3, 4].findSome? fun size => (textOf? (bytes.take size)).bind (·.toList.head?)

/-- Whether bytes are the beginning of a character that goes on behind them. -/
def isCut : List UInt8 → Bool
  | [a] => 0xC2 ≤ a && a ≤ 0xF4
  | [a, b] =>
    let least := if a = 0xE0 then 0xA0 else if a = 0xF0 then 0x90 else 0x80
    let most := if a = 0xED then 0x9F else if a = 0xF4 then 0x8F else 0xBF
    0xE0 ≤ a && a ≤ 0xF4 && least ≤ b && b ≤ most
  | [a, b, c] => 0xF0 ≤ a && isCut [a, b] && 0x80 ≤ c && c ≤ 0xBF
  | _ => false

/-- How many bytes at the front belong together where no character begins. -/
def brokenSize (bytes : List UInt8) : Nat :=
  if isCut (bytes.take 3) then 3 else if isCut (bytes.take 2) then 2 else 1

/-- The pieces of some bytes. -/
def pieces : List UInt8 → List Piece
  | [] => []
  | b :: rest =>
    match firstChar? (b :: rest) with
    | some c => .char c :: pieces (rest.drop (c.utf8Size - 1))
    | none =>
      let size := brokenSize (b :: rest)
      .broken ((b :: rest).take size) :: pieces (rest.drop (size - 1))
termination_by bytes => bytes.length
decreasing_by all_goals simp only [List.length_drop, List.length_cons]; omega

/-- The text that some bytes are shown as, with a sign of its own for what belongs to no
character. -/
def shown (bytes : List UInt8) : String :=
  (textOf? bytes).getD <| String.ofList <| (pieces bytes).map fun
    | .char c => c
    | .broken _ => '\uFFFD'

end Text

end AddressPool
