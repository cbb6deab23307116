import AddressPool.Proofs.Json.Codec
import Mathlib.Tactic

/-!
# Reading back what is written

A codec reads back what it writes (`Codec.ReadsBack`) if reading takes every value off the front of its
text, in every layout, whatever blanks come before and whatever comes after.  Strings, lists and types
that wrap others do.  A structure does if its fields restore it (`Restores`): what a field reads puts a
member of the structure back, and a field that writes nothing may be missing and has nothing to put back.

The members are read in the order of the fields, but an object does not say so; the reader looks each
name up and keeps a list of the names that were given.  That list has nothing but names of fields that
were passed, and every required one of them (`Passed`), which is the invariant of `members_written`.
-/

namespace AddressPool.Json

variable {σ α β : Type} {l : Layout} {depth : Nat} {gap bs bs' rest rest' : Bytes} {first : Bool}
  {most : Nat}

/-! ### The bytes of a value -/

/-- What written values begin with: a quote, a bracket or a brace. -/
def Opens (bs : Bytes) : Prop :=
  ∃ b rest, (b = ascii '"' ∨ b = ascii '[' ∨ b = ascii '\x7b') ∧ bs = b :: rest

theorem Opens.append (h : Opens bs) (rest : Bytes) : Opens (bs ++ rest) := by
  obtain ⟨b, bs, hb, rfl⟩ := h
  exact ⟨b, bs ++ rest, hb, rfl⟩

theorem Opens.behind (h : Opens bs) (hgap : Blank gap) :
    ∃ b rest, bs = b :: rest ∧ skipGap (gap ++ bs) = bs ∧ nextByte (gap ++ bs) = .ok (b, rest) ∧
      b ≠ ascii ']' ∧ b ≠ ascii 'n' := by
  obtain ⟨b, rest, hb, rfl⟩ := h
  have hnot : isGapByte b = false ∧ b ≠ ascii ']' ∧ b ≠ ascii 'n' := by
    rcases hb with rfl | rfl | rfl <;> decide
  refine ⟨b, rest, rfl, ?_, nextByte_append hgap hnot.1 rest, hnot.2⟩
  rw [skipGap_append hgap, skipGap, List.dropWhile_cons_of_neg (by simp [hnot.1])]

theorem bytes_array_nil : bytes (chars l depth (.array [])) = [ascii '[', ascii ']'] := by
  rw [chars, bytes_cons_ascii (by decide), bytes_cons_ascii (by decide), bytes_nil]

theorem bytes_array_cons (item : Json) (items : List Json) :
    bytes (chars l depth (.array (item :: items))) =
      ascii '[' :: (bytes (l.gap (depth + 1)) ++ (bytes (chars l (depth + 1) item) ++
        (bytes (itemChars l (depth + 1) items) ++ (bytes (l.gap depth) ++ [ascii ']'])))) := by
  rw [chars]
  simp only [List.cons_append, List.append_assoc]
  rw [bytes_cons_ascii (by decide)]
  simp only [bytes_append]
  rfl

theorem bytes_itemChars_cons (item : Json) (items : List Json) :
    bytes (itemChars l depth (item :: items)) =
      ascii ',' :: (bytes (l.gap depth) ++ (bytes (chars l depth item) ++
        bytes (itemChars l depth items))) := by
  rw [itemChars]
  simp only [List.cons_append, List.append_assoc]
  rw [bytes_cons_ascii (by decide)]
  simp only [bytes_append]

theorem length_itemChars (items : List Json) : items.length ≤ (itemChars l depth items).length := by
  induction items with
  | nil => exact Nat.zero_le _
  | cons item items ih =>
    rw [itemChars]
    simp only [List.length_append, List.length_cons]
    omega

def memberBytes (l : Layout) (depth : Nat) (name : String) (value : Json) : Bytes :=
  bytes (l.gap depth) ++ (bytes (quoted name) ++ ascii ':' :: (bytes l.afterColon ++
    bytes (value.chars l depth)))

theorem bytes_object_nil : bytes (chars l depth (.object [])) = [ascii '\x7b', ascii '\x7d'] := by
  rw [chars, bytes_cons_ascii (by decide), bytes_cons_ascii (by decide), bytes_nil]

theorem bytes_object_cons (name : String) (value : Json) (members : List (String × Json)) :
    bytes (chars l depth (.object ((name, value) :: members))) =
      ascii '\x7b' :: (memberBytes l (depth + 1) name value ++
        (bytes (memberChars l (depth + 1) members) ++ (bytes (l.gap depth) ++ [ascii '\x7d']))) := by
  rw [chars, memberBytes]
  simp only [List.cons_append, List.append_assoc]
  rw [bytes_cons_ascii (by decide)]
  simp only [bytes_append]
  rw [bytes_cons_ascii (by decide)]
  simp only [bytes_append]
  rfl

theorem bytes_memberChars_cons (name : String) (value : Json) (members : List (String × Json)) :
    bytes (memberChars l depth ((name, value) :: members)) =
      ascii ',' :: (memberBytes l depth name value ++ bytes (memberChars l depth members)) := by
  rw [memberChars, memberBytes]
  simp only [List.cons_append, List.append_assoc]
  rw [bytes_cons_ascii (by decide)]
  simp only [bytes_append]
  rw [bytes_cons_ascii (by decide)]
  simp only [bytes_append]

theorem length_memberChars (members : List (String × Json)) :
    members.length ≤ (memberChars l depth members).length := by
  induction members with
  | nil => exact Nat.zero_le _
  | cons member members ih =>
    obtain ⟨name, value⟩ := member
    rw [memberChars]
    simp only [List.length_append, List.length_cons]
    omega

theorem opens_chars (l : Layout) (depth : Nat) (j : Json) : Opens (bytes (chars l depth j)) := by
  cases j with
  | string s =>
    refine ⟨ascii '"', bytes (s.toList.flatMap escaped) ++ [ascii '"'], .inl rfl, ?_⟩
    rw [chars, bytes_quoted]
    rfl
  | array items =>
    cases items with
    | nil => exact ⟨_, _, .inr (.inl rfl), bytes_array_nil⟩
    | cons item items => exact ⟨_, _, .inr (.inl rfl), bytes_array_cons item items⟩
  | object members =>
    cases members with
    | nil => exact ⟨_, _, .inr (.inr rfl), bytes_object_nil⟩
    | cons member members => exact ⟨_, _, .inr (.inr rfl), bytes_object_cons _ _ members⟩

/-! ### Values -/

/-- Reading takes a value off the front, whatever the layout and the blanks before it. -/
def Reads (read : Scan α) (j : Json) (a : α) : Prop :=
  ∀ (l : Layout) (depth : Nat) (gap rest : Bytes), Blank gap →
    read (gap ++ (bytes (chars l depth j) ++ rest)) = .ok (a, rest)

/-- Every value is read from what it is written as. -/
def Codec.ReadsBack (c : Codec α) : Prop :=
  ∀ a, Reads c.read (c.write a) a

namespace Codec

theorem readsBack_string : string.ReadsBack := by
  intro s l depth gap rest hgap
  show string.read (gap ++ (bytes (quoted s) ++ rest)) = _
  rw [bytes_quoted, string]
  dsimp only
  rw [List.cons_append, List.cons_append, List.append_assoc, nextByte_append hgap rfl, ok_bind]
  exact stringRest_quoted s rest

theorem readsBack_spelled {parse? : String → Option α} {text : α → String}
    (h : ∀ a, parse? (text a) = some a) : (spelled parse? text).ReadsBack := by
  intro a l depth gap rest hgap
  show (string.read (gap ++ (bytes (chars l depth (string.write (text a))) ++ rest)) >>= _) = _
  rw [readsBack_string (text a) l depth gap rest hgap, ok_bind]
  dsimp only
  rw [h]

theorem ReadsBack.wrap {c : Codec α} (hc : c.ReadsBack) {into : α → β} {out : β → α}
    (h : ∀ b, into (out b) = b) : (c.wrap into out).ReadsBack := by
  intro b l depth gap rest hgap
  show (c.read (gap ++ (bytes (chars l depth (c.write (out b))) ++ rest)) >>= _) = _
  rw [hc (out b) l depth gap rest hgap, ok_bind]
  dsimp only
  rw [h]

/-! ### Lists -/

theorem nextItem_close (first : Bool) (hgap : Blank gap) (rest : Bytes) :
    nextItem first (gap ++ ascii ']' :: rest) = .ok (false, ascii ']' :: rest) := by
  rw [nextItem, nextByte_append hgap rfl, ok_bind]
  exact if_pos rfl

theorem nextItem_first (hgap : Blank gap) (hopens : Opens bs) :
    nextItem true (gap ++ bs) = .ok (true, bs) := by
  obtain ⟨b, rest, rfl, -, hnext, hlast, -⟩ := hopens.behind hgap
  rw [nextItem, hnext, ok_bind]
  dsimp only
  rw [if_neg hlast, if_pos rfl]

theorem nextItem_comma (hgap : Blank gap) (hopens : Opens bs) :
    nextItem false (ascii ',' :: (gap ++ bs)) = .ok (true, bs) := by
  obtain ⟨b, rest, rfl, -, hnext, hlast, -⟩ := hopens.behind hgap
  have hcomma : nextByte (ascii ',' :: (gap ++ b :: rest)) = .ok (ascii ',', gap ++ b :: rest) := rfl
  rw [nextItem, hcomma, ok_bind]
  dsimp only
  rw [if_neg (by decide), if_neg Bool.false_ne_true, if_pos rfl, hnext, ok_bind]
  dsimp only
  rw [if_neg hlast]

theorem items_nil (read : Scan α) (hgap : Blank gap) (rest : Bytes) :
    items read (most + 1) first (gap ++ ascii ']' :: rest) = .ok ([], rest) := by
  rw [items, nextItem_close first hgap]
  rfl

theorem items_cons {read : Scan α} {a : α} {as : List α} (hnext : nextItem first bs = .ok (true, bs'))
    (hread : read bs' = .ok (a, rest)) (hrest : items read most false rest = .ok (as, rest')) :
    items read (most + 1) first bs = .ok (a :: as, rest') := by
  rw [items, hnext, ok_bind]
  dsimp only
  rw [if_pos rfl, hread, ok_bind]
  dsimp only
  rw [hrest]
  rfl

theorem items_itemChars {c : Codec α} (hc : c.ReadsBack) {as : List α} (hmost : as.length < most)
    (hgap : Blank gap) (rest : Bytes) :
    items c.read most false
      (bytes (itemChars l depth (as.map c.write)) ++ (gap ++ ascii ']' :: rest)) = .ok (as, rest) := by
  induction as generalizing most with
  | nil =>
    obtain ⟨most, rfl⟩ := Nat.exists_eq_add_one_of_ne_zero (Nat.ne_of_gt hmost)
    exact items_nil c.read hgap rest
  | cons a as ih =>
    obtain ⟨most, rfl⟩ := Nat.exists_eq_add_one_of_ne_zero (Nat.ne_of_gt (Nat.zero_lt_of_lt hmost))
    rw [List.map_cons, bytes_itemChars_cons]
    simp only [List.cons_append, List.append_assoc]
    exact items_cons (nextItem_comma (blank_bytes (l.gap_blank depth)) ((opens_chars l depth _).append _))
      (hc a l depth [] _ blank_nil) (ih (Nat.lt_of_succ_lt_succ hmost))

theorem ReadsBack.list {c : Codec α} (hc : c.ReadsBack) : (Codec.list c).ReadsBack := by
  intro as l depth gap rest hgap
  show (Codec.list c).read (gap ++ (bytes (chars l depth (.array (as.map c.write))) ++ rest)) = _
  rw [Codec.list]
  dsimp only
  cases as with
  | nil =>
    rw [List.map_nil, bytes_array_nil, List.cons_append, nextByte_append hgap rfl, ok_bind]
    exact items_nil c.read blank_nil rest
  | cons a as =>
    have hlength : as.length ≤ (bytes (itemChars l (depth + 1) (as.map c.write))).length := by
      rw [← List.length_map c.write]
      exact (length_itemChars _).trans (length_le_length_bytes _)
    rw [List.map_cons, bytes_array_cons, List.cons_append, nextByte_append hgap rfl, ok_bind]
    dsimp only
    rw [if_pos rfl]
    simp only [List.append_assoc, List.cons_append, List.nil_append]
    refine items_cons (nextItem_first (blank_bytes (l.gap_blank _)) ((opens_chars l _ _).append _))
      (hc a l (depth + 1) [] _ blank_nil) (items_itemChars hc ?_ (blank_bytes (l.gap_blank depth)) rest)
    simp only [List.length_append, List.length_cons]
    omega

end Codec

/-! ### Members -/

variable {fields todo done : List (Field σ)} {field : Field σ} {seen : List String} {s t : σ}
  {name : String} {value : Json} {change : σ → σ}

theorem members_close (hrequired : ∀ f ∈ fields, f.required = true → f.name ∈ seen) (hgap : Blank gap)
    (rest : Bytes) :
    members fields (most + 1) first seen s (gap ++ ascii '\x7d' :: rest) = .ok (s, rest) := by
  have hall : (fields.all fun f => !f.required || seen.contains f.name) = true := by
    rw [List.all_eq_true]
    intro f hf
    cases hr : f.required with
    | false => rfl
    | true => simpa using hrequired f hf hr
  rw [members, nextByte_append hgap rfl, ok_bind]
  dsimp only
  rw [if_pos rfl, if_pos hall]

theorem nextByte_memberBytes (l : Layout) (depth : Nat) (name : String) (value : Json) (rest : Bytes) :
    nextByte (memberBytes l depth name value ++ rest) =
      .ok (ascii '"', bytes (name.toList.flatMap escaped) ++ ascii '"' :: ascii ':' ::
        (bytes l.afterColon ++ (bytes (chars l depth value) ++ rest))) := by
  rw [memberBytes, bytes_quoted]
  simp only [List.append_assoc, List.cons_append, List.nil_append]
  exact nextByte_append (blank_bytes (l.gap_blank depth)) rfl _

theorem members_comma (rest : Bytes) :
    members fields (most + 1) false seen s (ascii ',' :: (memberBytes l depth name value ++ rest)) =
      members fields (most + 1) true seen s (memberBytes l depth name value ++ rest) := by
  have hcomma : nextByte (ascii ',' :: (memberBytes l depth name value ++ rest)) =
      .ok (ascii ',', memberBytes l depth name value ++ rest) := rfl
  rw [members, members, hcomma, nextByte_memberBytes, ok_bind, ok_bind]
  dsimp only
  rw [if_neg (by decide), if_neg Bool.false_ne_true, if_pos rfl, if_neg (by decide), if_pos rfl,
    nextByte_memberBytes]

theorem members_brace (rest : Bytes) :
    members fields (most + 1) false seen s (ascii '\x7d' :: rest) =
      members fields (most + 1) true seen s (ascii '\x7d' :: rest) := by
  have hbrace : nextByte (ascii '\x7d' :: rest) = .ok (ascii '\x7d', rest) := rfl
  rw [members, members, hbrace, ok_bind, ok_bind]
  dsimp only
  rw [if_pos rfl, if_pos rfl]

theorem members_member (hfind : fields.find? (·.name == field.name) = some field)
    (hseen : field.name ∉ seen) (hread : Reads field.read value change) (rest : Bytes) :
    members fields (most + 1) true seen s (memberBytes l depth field.name value ++ rest) =
      members fields most false (field.name :: seen) (change s) rest := by
  have hcontains : ¬ seen.contains field.name = true := by simpa using hseen
  have hcolon : colon (ascii ':' :: (bytes l.afterColon ++ (bytes (chars l depth value) ++ rest))) =
      .ok ((), bytes l.afterColon ++ (bytes (chars l depth value) ++ rest)) := rfl
  rw [members, nextByte_memberBytes, ok_bind]
  dsimp only
  rw [if_neg (by decide), if_pos rfl, ok_bind]
  dsimp only
  rw [if_neg (not_not_intro rfl), stringRest_quoted, ok_bind]
  dsimp only
  rw [hfind]
  dsimp only
  rw [if_neg hcontains, hcolon, ok_bind]
  dsimp only
  rw [hread l depth _ rest (blank_bytes l.afterColon_blank), ok_bind]

/-! ### Structures -/

/-- Reading the members that some fields write of `s` turns what was read so far into `s`. -/
inductive Restores (s : σ) : List (Field σ) → σ → Prop
  | nil : Restores s [] s
  | cons {f : Field σ} {todo : List (Field σ)} {t : σ} (copy : σ → σ)
      (written : ∀ j, f.write s = some j → Reads f.read j copy)
      (omitted : f.write s = none → f.required = false ∧ copy t = t)
      (rest : Restores s todo (copy t)) : Restores s (f :: todo) t

namespace Restores

theorem mandatory {c : Codec α} {get : σ → α} {set : α → σ → σ} (hc : c.ReadsBack)
    (h : Restores s todo (set (get s) t)) :
    Restores s (.mandatory name c get set :: todo) t := by
  refine .cons (set (get s)) (fun j hj => ?_) (fun hnone => ?_) h
  · cases hj
    intro l depth gap rest hgap
    exact read_mandatory name (hc (get s) l depth gap rest hgap)
  · cases hnone

theorem defaulted {c : Codec α} {skip : α → Bool} {get : σ → α} {set : α → σ → σ} (hc : c.ReadsBack)
    (hskip : skip (get s) = true → set (get s) t = t) (h : Restores s todo (set (get s) t)) :
    Restores s (.defaulted name c skip get set :: todo) t := by
  refine .cons (set (get s)) (fun j hj => ?_) (fun hnone => ⟨rfl, hskip ?_⟩) h
  · simp only [Field.defaulted] at hj
    split_ifs at hj
    cases hj
    intro l depth gap rest hgap
    exact read_defaulted name (hc (get s) l depth gap rest hgap)
  · simp only [Field.defaulted] at hnone
    split_ifs at hnone with hskip
    exact hskip

theorem optional {c : Codec α} {get : σ → Option α} {set : Option α → σ → σ} (hc : c.ReadsBack)
    (hnone : set none t = t) (h : Restores s todo (set (get s) t)) :
    Restores s (.optional name c get set :: todo) t := by
  refine .cons (set (get s)) (fun j hj => ?_) (fun hmissing => ⟨rfl, ?_⟩) h
  · obtain ⟨a, ha, rfl⟩ := Option.map_eq_some_iff.mp hj
    rw [ha]
    intro l depth gap rest hgap
    obtain ⟨b, bs, hbytes, hskip, -, -, hn⟩ :=
      ((opens_chars l depth (c.write a)).append rest).behind hgap
    exact read_optional name (hskip.trans hbytes) hn (hc a l depth gap rest hgap)
  · have hget : get s = none := Option.map_eq_none_iff.mp hmissing
    rw [hget, hnone]

end Restores

def written (fields : List (Field σ)) (s : σ) : List (String × Json) :=
  fields.filterMap fun f => (f.write s).map (f.name, ·)

theorem written_cons_of_none (hwrite : field.write s = none) :
    written (field :: fields) s = written fields s := by
  rw [written, List.filterMap_cons_none (by rw [hwrite]; rfl), written]

theorem written_cons_of_some (hwrite : field.write s = some value) :
    written (field :: fields) s = (field.name, value) :: written fields s := by
  rw [written, List.filterMap_cons_some (by rw [hwrite]; rfl), written]

theorem name_notMem (hnodup : ((done ++ field :: todo).map (·.name)).Nodup) :
    field.name ∉ done.map (·.name) := by
  rw [List.map_append, List.map_cons] at hnodup
  exact fun hmem => (List.nodup_append.mp hnodup).2.2 _ hmem _ List.mem_cons_self rfl

theorem find?_name (hnodup : ((done ++ field :: todo).map (·.name)).Nodup) :
    (done ++ field :: todo).find? (·.name == field.name) = some field := by
  rw [List.find?_eq_some_iff_append]
  refine ⟨beq_self_eq_true _, done, todo, rfl, fun f hf => ?_⟩
  have hne : f.name ≠ field.name := fun h =>
    name_notMem hnodup (h ▸ List.mem_map_of_mem (f := Field.name) hf)
  simpa using hne

/-- The names that were given are those of fields that were passed, all required ones among them. -/
structure Passed (done : List (Field σ)) (seen : List String) : Prop where
  required : ∀ f ∈ done, f.required = true → f.name ∈ seen
  seen : ∀ name ∈ seen, name ∈ done.map (·.name)

namespace Passed

theorem nil : Passed ([] : List (Field σ)) [] :=
  ⟨by simp, by simp⟩

theorem pass (h : Passed done seen) (hfield : field.required = false) :
    Passed (done ++ [field]) seen where
  required f hf hr := by
    rcases List.mem_append.mp hf with hf | hf
    · exact h.required f hf hr
    · rw [List.mem_singleton] at hf
      rw [hf, hfield] at hr
      cases hr
  seen name hname := by
    rw [List.map_append]
    exact List.mem_append_left _ (h.seen name hname)

theorem give (h : Passed done seen) : Passed (done ++ [field]) (field.name :: seen) where
  required f hf hr := by
    rcases List.mem_append.mp hf with hf | hf
    · exact List.mem_cons_of_mem _ (h.required f hf hr)
    · rw [List.mem_singleton] at hf
      rw [hf]
      exact List.mem_cons_self
  seen name hname := by
    rw [List.map_append, List.mem_append]
    rcases List.mem_cons.mp hname with rfl | hname
    · exact .inr List.mem_cons_self
    · exact .inl (h.seen name hname)

end Passed

/-- **Members that fields write are read by these fields**, wherever the reading stands. -/
theorem members_written (h : Restores s todo t) (hnodup : ((done ++ todo).map (·.name)).Nodup)
    (hpassed : Passed done seen) (hmost : (written todo s).length < most) (hgap : Blank gap)
    (rest : Bytes) :
    members (done ++ todo) most false seen t
      (bytes (memberChars l depth (written todo s)) ++ (gap ++ ascii '\x7d' :: rest)) =
        .ok (s, rest) := by
  induction h generalizing done seen most with
  | nil =>
    obtain ⟨most, rfl⟩ := Nat.exists_eq_add_one_of_ne_zero (Nat.ne_of_gt hmost)
    rw [List.append_nil]
    exact members_close hpassed.required hgap rest
  | @cons f todo t copy hwritten homitted _ ih =>
    have hfind := find?_name hnodup
    have hfresh : f.name ∉ seen := fun hmem => name_notMem hnodup (hpassed.seen _ hmem)
    rw [List.append_cons] at hnodup hfind ⊢
    cases hwrite : f.write s with
    | none =>
      -- nothing is written of the field, and nothing of what was read has to change for it
      obtain ⟨hoptional, hcopy⟩ := homitted hwrite
      rw [written_cons_of_none hwrite] at hmost ⊢
      rw [hcopy] at ih
      exact ih hnodup (hpassed.pass hoptional) hmost
    | some value =>
      rw [written_cons_of_some hwrite] at hmost ⊢
      obtain ⟨most, rfl⟩ := Nat.exists_eq_add_one_of_ne_zero (Nat.ne_of_gt (Nat.zero_lt_of_lt hmost))
      rw [bytes_memberChars_cons, List.cons_append, List.append_assoc (memberBytes _ _ _ _),
        members_comma, members_member hfind hfresh (hwritten value hwrite)]
      exact ih hnodup hpassed.give (Nat.lt_of_succ_lt_succ hmost)

/-- **A structure is read from what it is written as** if its fields restore it. -/
theorem Codec.readsBack_record {blank : σ} (hnodup : (fields.map (·.name)).Nodup)
    (hfields : ∀ s, Restores s fields blank) : (Codec.record blank fields).ReadsBack := by
  intro s l depth gap rest hgap
  have hmembers : ∀ most gap, (written fields s).length < most → Blank gap →
      members fields most false [] blank (bytes (memberChars l (depth + 1) (written fields s)) ++
        (gap ++ ascii '\x7d' :: rest)) = .ok (s, rest) := fun most gap hmost hgap =>
    members_written (hfields s) (by rwa [List.nil_append]) .nil hmost hgap rest
  show (Codec.record blank fields).read
    (gap ++ (bytes (chars l depth (.object (written fields s))) ++ rest)) = _
  rw [Codec.record]
  dsimp only
  cases hwritten : written fields s with
  | nil =>
    rw [hwritten] at hmembers
    rw [bytes_object_nil, List.cons_append, nextByte_append hgap rfl, ok_bind]
    dsimp only
    rw [if_neg (by decide), if_pos rfl, List.cons_append, List.nil_append, ← members_brace]
    exact hmembers _ [] (Nat.zero_lt_succ _) blank_nil
  | cons member ms =>
    obtain ⟨name, value⟩ := member
    -- the first member comes without the comma that `members_written` speaks of
    have hlength : ms.length ≤ (bytes (memberChars l (depth + 1) ms)).length :=
      (length_memberChars ms).trans (length_le_length_bytes _)
    have hall := fun most hmost => hmembers most _ hmost (blank_bytes (l.gap_blank depth))
    rw [hwritten, bytes_memberChars_cons] at hall
    rw [bytes_object_cons, List.cons_append, nextByte_append hgap rfl, ok_bind]
    dsimp only
    rw [if_neg (by decide), if_pos rfl]
    simp only [List.append_assoc, List.cons_append, List.nil_append] at hall ⊢
    rw [← members_comma]
    refine hall _ ?_
    simp only [List.length_append, List.length_cons]
    omega

/-! ### Whole texts -/

/-- **A text is decoded to the value that it was written for**, in every layout, blanks at its end
apart. -/
theorem Codec.ReadsBack.decode_render {c : Codec α} (hc : c.ReadsBack) (l : Layout) (a : α)
    (hgap : Blank gap) : c.decode (bytesOf ((c.write a).render l) ++ gap) = .ok a := by
  have hread := hc a l 0 [] gap blank_nil
  have hend : skipGap gap = [] := by
    rw [← List.append_nil gap, skipGap_append hgap]
    rfl
  rw [List.nil_append] at hread
  rw [render, bytesOf_eq_bytes, String.toList_ofList, Codec.decode, hread, ok_bind]
  dsimp only
  rw [if_pos hend]

theorem Codec.ReadsBack.decode_encode {c : Codec α} (hc : c.ReadsBack) (a : α) :
    c.decode (bytesOf (c.encode a)) = .ok a := by
  have hrender := hc.decode_render .compact a blank_nil
  rwa [List.append_nil] at hrender

end AddressPool.Json
