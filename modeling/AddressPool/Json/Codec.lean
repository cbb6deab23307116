import AddressPool.Json.Number
import AddressPool.Json.Value

/-!
# Reading and writing structures

A codec holds both directions of one type: how a value is written and how it is read off the front
of the bytes.  The members of a structure are listed once, as fields, in the order in which they are
written; the same list says how an object of them is read.

A structure is also read from an array of its members in that order, whose last members may be
missing if an object might leave them out.  Members of an object that the structure does not know
are passed over; one that it knows may be given once.
-/

namespace AddressPool.Json

/-- How values of a type are taken off the front of a text, and which JSON they are written as. -/
structure Codec (α : Type) where
  read : Scan α
  write : α → Json

namespace Codec

def string : Codec String where
  read bs := do
    let (b, rest) ← nextByte bs
    if b = ascii '"' then stringRest rest else .error (wrongShape b rest)
  write := .string

/-- Values that are written as strings of a form of their own. -/
def spelled (parse? : String → Option α) (text : α → String) : Codec α where
  read bs := do
    let (s, rest) ← string.read bs
    match parse? s with
    | some a => .ok (a, rest)
    | none => .error .mismatch
  write a := .string (text a)

/-! ### Arrays -/

/-- Whether an array goes on: the bytes from its next item on, or none at its closing bracket, which
stays.  Nothing but the first item may come without a comma. -/
def nextItem (first : Bool) : Scan Bool := fun bs => do
  let (b, rest) ← nextByte bs
  if b = ascii ']' then .ok (false, b :: rest)
  else if first then .ok (true, b :: rest)
  else if b = ascii ',' then
    let (c, rest) ← nextByte rest
    if c = ascii ']' then .error .malformed else .ok (true, c :: rest)
  else .error .malformed

/-- The closing bracket of an array, after the last item that is wanted. -/
def closeArray : Scan Unit := fun bs => do
  let (b, rest) ← nextByte bs
  if b = ascii ']' then .ok ((), rest) else .error .malformed

/-- The items of an array whose opening bracket is behind, at most `most` of them.  An item takes at
least one byte, so there are fewer items than bytes. -/
def items (read : Scan α) : (most : Nat) → (first : Bool) → Scan (List α)
  | 0, _, _ => .error .truncated
  | most + 1, first, bs => do
    let (more, bs) ← nextItem first bs
    if more then
      let (a, rest) ← read bs
      let (as, rest) ← items read most false rest
      .ok (a :: as, rest)
    else
      let (_, rest) ← closeArray bs
      .ok ([], rest)

def list (c : Codec α) : Codec (List α) where
  read bs := do
    let (b, rest) ← nextByte bs
    if b = ascii '[' then items c.read (rest.length + 1) true rest
    else .error (wrongShape b rest)
  write as := .array (as.map c.write)

def wrap (c : Codec α) (into : α → β) (out : β → α) : Codec β where
  read bs := do
    let (a, rest) ← c.read bs
    .ok (into a, rest)
  write b := c.write (out b)

end Codec

/-! ### Fields -/

/-- A member of a structure: its name, whether an object must have it, how what is read changes the
structure, and what is written of it, if anything. -/
structure Field (σ : Type) where
  name : String
  required : Bool
  read : Scan (σ → σ)
  write : σ → Option Json

namespace Field

/-- A member that must be there and is always written. -/
def mandatory (name : String) (c : Codec α) (get : σ → α) (set : α → σ → σ) : Field σ where
  name := name
  required := true
  read bs := do
    let (a, rest) ← c.read bs
    .ok (set a, rest)
  write s := some (c.write (get s))

/-- A member that may be missing and is left out when `skip` says so. -/
def defaulted (name : String) (c : Codec α) (skip : α → Bool) (get : σ → α) (set : α → σ → σ) :
    Field σ where
  name := name
  required := false
  read bs := do
    let (a, rest) ← c.read bs
    .ok (set a, rest)
  write s := if skip (get s) then none else some (c.write (get s))

/-- A member that may be missing or `null`, and is left out when there is nothing. -/
def optional (name : String) (c : Codec α) (get : σ → Option α) (set : Option α → σ → σ) :
    Field σ where
  name := name
  required := false
  read bs :=
    match skipGap bs with
    | b :: rest =>
      if b = ascii 'n' then do
        let (_, rest) ← literal [ascii 'u', ascii 'l', ascii 'l'] rest
        .ok (set none, rest)
      else do
        let (a, rest) ← c.read bs
        .ok (set (some a), rest)
    | [] => .error .truncated
  write s := (get s).map c.write

end Field

/-! ### Structures -/

/-- Reads the members of an object whose opening brace is behind, changing `s` by each of them;
`seen` lists the members that were given already.  A member takes at least one byte, so `most` is
the count of bytes. -/
def members (fields : List (Field σ)) :
    (most : Nat) → (first : Bool) → (seen : List String) → σ → Scan σ
  | 0, _, _, _, _ => .error .truncated
  | most + 1, first, seen, s, bs => do
    let (b, rest) ← nextByte bs
    if b = ascii '\x7d' then
      if fields.all fun f => !f.required || seen.contains f.name then .ok (s, rest)
      else .error .mismatch
    else
      let (b, rest) ←
        if first then .ok (b, rest)
        else if b = ascii ',' then nextByte rest
        else .error .malformed
      if b ≠ ascii '"' then .error .malformed
      let (name, rest) ← stringRest rest
      match fields.find? (·.name == name) with
      | none =>
        let (_, rest) ← colon rest
        let (_, rest) ← skipValue rest
        members fields most false seen s rest
      | some field =>
        if seen.contains name then .error .mismatch
        let (_, rest) ← colon rest
        let (change, rest) ← field.read rest
        members fields most false (name :: seen) (change s) rest

/-- Reads the members of a structure from an array whose opening bracket is behind. -/
def elements : List (Field σ) → (first : Bool) → σ → Scan σ
  | [], _, s, bs => do
    let (_, rest) ← Codec.closeArray bs
    .ok (s, rest)
  | field :: fields, first, s, bs => do
    let (more, bs) ← Codec.nextItem first bs
    if more then
      let (change, rest) ← field.read bs
      elements fields false (change s) rest
    else if field.required then .error .mismatch
    else elements fields first s bs

/-- A structure with the given members, read as changes of `blank`. -/
def Codec.record (blank : σ) (fields : List (Field σ)) : Codec σ where
  read bs := do
    let (b, rest) ← nextByte bs
    if b = ascii '[' then elements fields true blank rest
    else if b = ascii '\x7b' then members fields (rest.length + 1) true [] blank rest
    else .error (wrongShape b rest)
  write s := .object (fields.filterMap fun f => (f.write s).map (f.name, ·))

/-! ### Whole texts -/

def Codec.decode (c : Codec α) (bs : Bytes) : Except Category α := do
  let (a, rest) ← c.read bs
  if skipGap rest = [] then .ok a else .error .malformed

def Codec.encode (c : Codec α) (a : α) : String :=
  (c.write a).compact

end AddressPool.Json
