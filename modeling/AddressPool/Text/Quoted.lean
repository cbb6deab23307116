import AddressPool.Text.Bytes
import AddressPool.Text.Number
import AddressPool.Text.Unprinted

/-!
# Quoted text

Text in messages stands between double quotes, with everything escaped that would not show as it is
or would end the quotes early.
-/

namespace AddressPool.Text.Quoted

/-- How a character is written between quotes. -/
def escaped (c : Char) : List Char :=
  if c.toNat = 0 then ['\\', '0']
  else if c = '\t' then ['\\', 't']
  else if c = '\n' then ['\\', 'n']
  else if c = '\r' then ['\\', 'r']
  else if c = '"' then ['\\', '"']
  else if c = '\\' then ['\\', '\\']
  else if isPrinted c then [c]
  else ['\\', 'u', '\x7b'] ++ digits 16 c.toNat ++ ['\x7d']

def text (s : String) : String :=
  String.ofList ('"' :: s.toList.flatMap escaped ++ ['"'])

def list (ss : List String) : String :=
  "[" ++ ", ".intercalate (ss.map text) ++ "]"

def escapedByte (b : UInt8) : List Char :=
  ['\\', 'x'] ++ (digits 16 b.toNat).map Char.toUpper

def path (bytes : List UInt8) : String :=
  String.ofList ('"' :: (pieces bytes).flatMap piece ++ ['"'])
where
  piece : Piece → List Char
    | .char c => escaped c
    | .broken bytes => bytes.flatMap escapedByte

end AddressPool.Text.Quoted
