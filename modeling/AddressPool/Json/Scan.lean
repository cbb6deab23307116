/-!
# Scanning JSON

A scanner takes something off the front of the bytes that are left and answers with the bytes after
it, or with the kind of the first problem it meets in text order.

Strings come in two strengths.  A string whose value is wanted must be whole: its escapes resolve,
surrogates come in pairs and the bytes are UTF-8.  A string that is only passed over is checked for
its shape alone.
-/

namespace AddressPool.Json

abbrev Bytes := List UInt8

/-- The kinds of problems with a JSON text. -/
inductive Category where
  | malformed
  | mismatch
  | truncated
  deriving DecidableEq, Repr

def Category.text : Category → String
  | malformed => "syntax"
  | mismatch => "data"
  | truncated => "eof"

/-- A step over the bytes that are left. -/
abbrev Scan (α : Type) := Bytes → Except Category (α × Bytes)

abbrev ascii (c : Char) : UInt8 :=
  c.toUInt8

def isGapByte (b : UInt8) : Bool :=
  b == ascii ' ' || b == ascii '\n' || b == ascii '\t' || b == ascii '\r'

def skipGap (bs : Bytes) : Bytes :=
  bs.dropWhile isGapByte

def nextByte : Scan UInt8 := fun bs =>
  match skipGap bs with
  | [] => .error .truncated
  | b :: rest => .ok (b, rest)

def literal : Bytes → Scan Unit
  | [], bs => .ok ((), bs)
  | _ :: _, [] => .error .truncated
  | e :: es, b :: bs => if b = e then literal es bs else .error .malformed

/-! ### Strings -/

def hexValue? (b : UInt8) : Option Nat :=
  let n := b.toNat
  if 48 ≤ n ∧ n ≤ 57 then some (n - 48)
  else if 97 ≤ n ∧ n ≤ 102 then some (n - 87)
  else if 65 ≤ n ∧ n ≤ 70 then some (n - 55)
  else none

def hexFour? (a b c d : UInt8) : Option Nat := do
  return ((← hexValue? a) * 16 + (← hexValue? b)) * 256 + (← hexValue? c) * 16 + (← hexValue? d)

/-- What a short escape stands for. -/
def shortEscape? (b : UInt8) : Option UInt8 :=
  if b = ascii '"' ∨ b = ascii '\\' ∨ b = ascii '/' then some b
  else if b = ascii 'b' then some 8
  else if b = ascii 'f' then some 12
  else if b = ascii 'n' then some 10
  else if b = ascii 'r' then some 13
  else if b = ascii 't' then some 9
  else none

/-- Puts bytes in front of what a scan of bytes found. -/
def ahead (front : Bytes) : Except Category (Bytes × Bytes) → Except Category (Bytes × Bytes)
  | .ok (found, rest) => .ok (front ++ found, rest)
  | .error e => .error e

/-- The bytes of a string up to its closing quote, with the escapes resolved. -/
def stringBytes : Scan Bytes
  | [] => .error .truncated
  | b :: rest =>
    if b = ascii '"' then .ok ([], rest)
    else if b = ascii '\\' then
      match rest with
      | [] => .error .truncated
      | e :: rest =>
        if e = ascii 'u' then
          match rest with
          | a :: b :: c :: d :: rest =>
            match hexFour? a b c d with
            | none => .error .malformed
            | some high =>
              if high < 0xD800 ∨ 0xDFFF < high then
                ahead (String.utf8EncodeChar (Char.ofNat high)) (stringBytes rest)
              else if 0xDC00 ≤ high then .error .malformed
              else
                match rest with
                | [] => .error .truncated
                | [s] => if s = ascii '\\' then .error .truncated else .error .malformed
                | s :: u :: rest =>
                  if s = ascii '\\' ∧ u = ascii 'u' then
                    match rest with
                    | a :: b :: c :: d :: rest =>
                      match hexFour? a b c d with
                      | none => .error .malformed
                      | some low =>
                        if 0xDC00 ≤ low ∧ low ≤ 0xDFFF then
                          let n := 0x10000 + (high - 0xD800) * 0x400 + (low - 0xDC00)
                          ahead (String.utf8EncodeChar (Char.ofNat n)) (stringBytes rest)
                        else .error .malformed
                    | _ => .error .truncated
                  else .error .malformed
          | _ => .error .truncated
        else
          match shortEscape? e with
          | none => .error .malformed
          | some c => ahead [c] (stringBytes rest)
    else if b < 0x20 then .error .malformed
    else ahead [b] (stringBytes rest)

def stringRest : Scan String := fun bs => do
  let (found, rest) ← stringBytes bs
  match String.fromUTF8? found.toByteArray with
  | some s => .ok (s, rest)
  | none => .error .malformed

/-- Passes over a string whose opening quote is behind. -/
def skipString : Scan Unit
  | [] => .error .truncated
  | b :: rest =>
    if b = ascii '"' then .ok ((), rest)
    else if b = ascii '\\' then
      match rest with
      | [] => .error .truncated
      | e :: rest =>
        if e = ascii 'u' then
          match rest with
          | a :: b :: c :: d :: rest =>
            if (hexFour? a b c d).isSome then skipString rest else .error .malformed
          | _ => .error .truncated
        else if (shortEscape? e).isSome then skipString rest
        else .error .malformed
    else if b < 0x20 then .error .malformed
    else skipString rest

/-! ### Numbers that are passed over -/

def isDigitByte (b : UInt8) : Bool :=
  ascii '0' ≤ b && b ≤ ascii '9'

def skipDigits (bs : Bytes) : Bytes :=
  bs.dropWhile isDigitByte

/-- Passes over at least one digit; that none is there is noticed on the text, not on its end. -/
def someDigits : Scan Unit
  | b :: rest => if isDigitByte b then .ok ((), skipDigits rest) else .error .malformed
  | [] => .error .malformed

/-- Passes over the exponent of a number, if there is one. -/
def skipExponent : Scan Unit
  | e :: rest =>
    if e = ascii 'e' ∨ e = ascii 'E' then
      match rest with
      | s :: rest' => if s = ascii '+' ∨ s = ascii '-' then someDigits rest' else someDigits rest
      | [] => .error .malformed
    else .ok ((), e :: rest)
  | [] => .ok ((), [])

/-- Passes over the fraction and the exponent of a number. -/
def skipFraction : Scan Unit
  | p :: rest =>
    if p = ascii '.' then do
      let (_, rest) ← someDigits rest
      skipExponent rest
    else skipExponent (p :: rest)
  | [] => .ok ((), [])

/-- Passes over a number whose sign is behind. -/
def skipNumber : Scan Unit
  | b :: rest =>
    if b = ascii '0' then
      match rest with
      | c :: _ => if isDigitByte c then .error .malformed else skipFraction rest
      | [] => .ok ((), [])
    else if isDigitByte b then skipFraction (skipDigits rest)
    else .error .malformed
  | [] => .error .malformed

/-! ### Values that are passed over -/

/-- What a value that is being passed over is nested in. -/
inductive Frame where
  | array
  | object
  deriving DecidableEq

def Frame.closing : Frame → UInt8
  | array => ascii ']'
  | object => ascii '}'

/-- Passes over a value that is neither an array nor an object; its first byte is given. -/
def skipScalar (b : UInt8) : Scan Unit := fun rest =>
  if b = ascii 'n' then literal [ascii 'u', ascii 'l', ascii 'l'] rest
  else if b = ascii 't' then literal [ascii 'r', ascii 'u', ascii 'e'] rest
  else if b = ascii 'f' then literal [ascii 'a', ascii 'l', ascii 's', ascii 'e'] rest
  else if b = ascii '-' then skipNumber rest
  else if isDigitByte b then skipNumber (b :: rest)
  else if b = ascii '"' then skipString rest
  else .error .malformed

/-- Passes over a colon and the blanks before it. -/
def colon : Scan Unit := fun bs => do
  let (b, rest) ← nextByte bs
  if b = ascii ':' then .ok ((), rest) else .error .malformed

def skipName : Scan Unit := fun bs => do
  let (b, rest) ← nextByte bs
  if b = ascii '"' then
    let (_, rest) ← skipString rest
    colon rest
  else .error .malformed

/-- Where the pass over a nested value stands. -/
inductive Stage where
  | value
  | after (opened : Bool)

/-- Passes over what is left of the nested values in `frames`, innermost first.  Each round takes at
least one byte or enters the next value, so twice as many rounds as bytes are enough. -/
def skipNested : Nat → Stage → List Frame → Scan Unit
  | 0, _, _, _ => .error .truncated
  | rounds + 1, .value, frames, bs => do
    let (b, rest) ← nextByte bs
    if b = ascii '[' then skipNested rounds (.after true) (.array :: frames) rest
    else if b = ascii '\x7b' then skipNested rounds (.after true) (.object :: frames) rest
    else
      let (_, rest) ← skipScalar b rest
      skipNested rounds (.after false) frames rest
  | _ + 1, .after _, [], bs => .ok ((), bs)
  | rounds + 1, .after opened, frame :: frames, bs => do
    let (b, rest) ← nextByte bs
    if b = frame.closing then skipNested rounds (.after false) frames rest
    else
      let bs ←
        if opened then .ok (b :: rest)
        else if b = ascii ',' then .ok rest
        else .error .malformed
      match frame with
      | .array => skipNested rounds .value (.array :: frames) bs
      | .object =>
        let (_, rest) ← skipName bs
        skipNested rounds .value (.object :: frames) rest

def skipValue : Scan Unit := fun bs =>
  skipNested (2 * bs.length + 2) .value [] bs

end AddressPool.Json
