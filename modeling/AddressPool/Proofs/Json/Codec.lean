import AddressPool.Json.Codec
import AddressPool.Proofs.Json.Scan
import Mathlib.Tactic

/-!
# Reading what is written plainly

A string of plain bytes is read as the text that the bytes are of.  A member of a structure is read as
the change that its value makes, and a structure from the array of its members one after the other; the
members that are missing at the end stay as they are (`elements_closed`).
-/

namespace AddressPool.Json

/-! ### Strings -/

theorem read_string {text : String} (h : ∀ b ∈ bytesOf text, Plain b) (rest : Bytes) :
    Codec.string.read (ascii '"' :: (bytesOf text ++ ascii '"' :: rest)) = .ok (text, rest) :=
  stringRest_bytesOf h rest

/-! ### Structures -/

variable {σ α : Type} {field : Field σ} {fields : List (Field σ)} {first : Bool} {s : σ}
  {bs bs' rest : Bytes} {change : σ → σ}

theorem read_record_array (blank : σ) (fields : List (Field σ)) (bs : Bytes) :
    (Codec.record blank fields).read (ascii '[' :: bs) = elements fields true blank bs := rfl

theorem elements_cons (hnext : Codec.nextItem first bs = .ok (true, bs'))
    (hread : field.read bs' = .ok (change, rest)) :
    elements (field :: fields) first s bs = elements fields false (change s) rest := by
  rw [elements, hnext]
  show (field.read bs' >>= fun x => elements fields false (x.1 s) x.2) = _
  rw [hread]
  rfl

theorem elements_closed (h : ∀ field ∈ fields, field.required = false) (s : σ) (rest : Bytes) :
    elements fields false s (ascii ']' :: rest) = .ok (s, rest) := by
  induction fields with
  | nil => rfl
  | cons field fields ih =>
    obtain ⟨hfield, hfields⟩ := List.forall_mem_cons.mp h
    have hnext : Codec.nextItem false (ascii ']' :: rest) = .ok (false, ascii ']' :: rest) := rfl
    rw [elements, hnext]
    show (if field.required = true then _ else elements fields false s (ascii ']' :: rest)) = _
    rw [if_neg (by simp [hfield])]
    exact ih hfields

theorem read_mandatory {c : Codec α} {get : σ → α} {set : α → σ → σ} {a : α} (name : String)
    (h : c.read bs = .ok (a, rest)) :
    (Field.mandatory name c get set).read bs = .ok (set a, rest) := by
  show (c.read bs >>= fun x => Except.ok (set x.1, x.2)) = _
  rw [h]
  rfl

theorem read_defaulted {c : Codec α} {skip : α → Bool} {get : σ → α} {set : α → σ → σ} {a : α}
    (name : String) (h : c.read bs = .ok (a, rest)) :
    (Field.defaulted name c skip get set).read bs = .ok (set a, rest) := by
  show (c.read bs >>= fun x => Except.ok (set x.1, x.2)) = _
  rw [h]
  rfl

theorem read_optional {c : Codec α} {get : σ → Option α} {set : Option α → σ → σ} {a : α} {b : UInt8}
    (name : String) (hskip : skipGap bs = b :: bs') (hb : b ≠ ascii 'n')
    (h : c.read bs = .ok (a, rest)) :
    (Field.optional name c get set).read bs = .ok (set (some a), rest) := by
  rw [Field.optional]
  dsimp only
  rw [hskip]
  dsimp only
  rw [if_neg hb, h]
  rfl

theorem decode_eq {c : Codec α} {a : α} (h : c.read bs = .ok (a, [])) : c.decode bs = .ok a := by
  rw [Codec.decode, h]
  rfl

end AddressPool.Json
