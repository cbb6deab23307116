import AddressPool.Proofs.Text.Words
import AddressPool.Resolver
import Mathlib.Data.List.Forall2
import Mathlib.Tactic

/-!
# What resolver settings say

A text is made of lines, and each line says something: it gives the values of a keyword, or it is to
be passed over.  The settings that are read are what the lines say together
(`Resolver.ofText_eq_meaning`).
-/

namespace AddressPool.Resolver

open AddressPool.Text

/-! ### Lines -/

/-- The keywords that are known. -/
inductive Keyword where
  | nameserver
  | domain
  | search
  | options
  deriving DecidableEq

def Keyword.text : Keyword → String
  | nameserver => "nameserver"
  | domain => "domain"
  | search => "search"
  | options => "options"

/-- What a line can say: the values of a keyword, or nothing. -/
inductive Statement where
  | gives (keyword : Keyword) (values : List String)
  | nothing

/-- A line says something. -/
inductive Says : List Char → Statement → Prop
  | gives {line : List Char} {keyword : Keyword} {values : List String} :
      Spaced ((keyword.text :: values).map String.toList) line → Says line (.gives keyword values)
  | blank {line : List Char} : Gap line → Says line .nothing
  | comment {gap rest : List Char} {mark : Char} : Gap gap → mark = '#' ∨ mark = ';' →
      Says (gap ++ mark :: rest) .nothing
  | other {line word : List Char} {ws : List (List Char)} : Spaced (word :: ws) line →
      (∀ keyword : Keyword, word ≠ keyword.text.toList) → Says line .nothing

def valuesOf (keyword : Keyword) (said : List Statement) : List (List String) :=
  said.filterMap fun
    | .gives k values => if k = keyword then some values else none
    | .nothing => none

/-- What statements come to: the first server of each, the first domain of the last one that has a
domain, and all search domains and options. -/
def meaning (said : List Statement) : Resolver where
  nameservers := (valuesOf .nameserver said).filterMap List.head?
  domain := ((valuesOf .domain said).filterMap List.head?).getLast?.getD ""
  search := (valuesOf .search said).flatten
  options := (valuesOf .options said).flatten

/-- A text is made of lines that end in a line feed, with or without a carriage return before it;
the last one need not end. -/
inductive Joined : List (List Char) → List Char → Prop
  | nil : Joined [] []
  | last {line : List Char} : '\n' ∉ line → Joined [line] line
  | feed {line rest : List Char} {lines : List (List Char)} : '\n' ∉ line → Joined lines rest →
      Joined (line :: lines) (line ++ '\n' :: rest)
  | returnFeed {line rest : List Char} {lines : List (List Char)} : '\n' ∉ line →
      Joined lines rest → Joined (line :: lines) (line ++ '\r' :: '\n' :: rest)

variable {line : List Char} {lines : List (List Char)} {said : List Statement}

/-! ### One line -/

theorem significant_eq (line : List Char) : significant line =
    match words line with
    | [] => []
    | word :: ws =>
      if word.head? = some '#' ∨ word.head? = some ';' then [] else (word :: ws).map String.ofList := by
  rw [← words_trimmed line, significant]
  cases htrimmed : trimmed line with
  | nil => rfl
  | cons c cs =>
    have hc : isBlank c = false := @head?_trimmed line c (by rw [htrimmed]; rfl)
    obtain ⟨word, ws, hwords⟩ := words_cons_of_not_blank hc cs
    dsimp only
    rw [hwords]
    simp

theorem significant_append_return (line : List Char) :
    significant (line ++ ['\r']) = significant line := by
  have hgap : Gap ['\r'] := List.forall_mem_singleton.mpr (by decide)
  rw [significant_eq, significant_eq, words_append_gap hgap]

theorem significant_of_gap (hgap : Gap line) : significant line = [] := by
  rw [significant_eq, words_gap hgap]

theorem significant_of_comment {gap : List Char} {mark : Char} (hgap : Gap gap)
    (hmark : mark = '#' ∨ mark = ';') (rest : List Char) :
    significant (gap ++ mark :: rest) = [] := by
  have hblank : isBlank mark = false := by rcases hmark with rfl | rfl <;> decide
  obtain ⟨word, ws, hwords⟩ := words_cons_of_not_blank hblank rest
  rw [significant_eq, words_gap_append hgap, hwords]
  dsimp only
  rw [if_pos (by simpa using hmark)]

theorem significant_of_gives {keyword : Keyword} {values : List String}
    (h : Spaced ((keyword.text :: values).map String.toList) line) :
    significant line = keyword.text :: values := by
  have hmark : ¬ (keyword.text.toList.head? = some '#' ∨ keyword.text.toList.head? = some ';') := by
    cases keyword <;> decide
  rw [significant_eq, words_of_spaced h, List.map_cons]
  dsimp only
  rw [if_neg hmark]
  simp

def hear (r : Resolver) : Statement → Resolver
  | .gives .nameserver values => { r with nameservers := r.nameservers ++ values.head?.toList }
  | .gives .domain values => { r with domain := values.head?.getD r.domain }
  | .gives .search values => { r with search := r.search ++ values }
  | .gives .options values => { r with options := r.options ++ values }
  | .nothing => r

theorem apply_gives (r : Resolver) (keyword : Keyword) (values : List String) :
    apply r (keyword.text :: values) = r.hear (.gives keyword values) := by
  cases keyword <;> simp [apply, Keyword.text, hear, List.take_one]

theorem apply_of_unknown (r : Resolver) {word : String} (h : ∀ keyword : Keyword, word ≠ keyword.text)
    (values : List String) : apply r (word :: values) = r := by
  have hserver : word ≠ "nameserver" := h .nameserver
  have hdomain : word ≠ "domain" := h .domain
  have hsearch : word ≠ "search" := h .search
  have hoptions : word ≠ "options" := h .options
  rw [apply, if_neg hserver, if_neg hdomain, if_neg hsearch, if_neg hoptions]

/-- **A line changes what it says.** -/
theorem apply_of_said {s : Statement} (h : Says line s) (r : Resolver) :
    apply r (significant line) = r.hear s := by
  cases h with
  | gives hline => rw [significant_of_gives hline, apply_gives]
  | blank hgap =>
    rw [significant_of_gap hgap]
    rfl
  | comment hgap hmark =>
    rw [significant_of_comment hgap hmark]
    rfl
  | @other _ word ws hline hword =>
    rw [significant_eq, words_of_spaced hline]
    dsimp only
    split_ifs
    · rfl
    · refine apply_of_unknown r (fun keyword heq => hword keyword ?_) _
      rw [← heq, String.toList_ofList]

theorem exists_said (line : List Char) : ∃ s, Says line s := by
  have hline := spaced_words line
  cases hwords : words line with
  | nil =>
    rw [hwords] at hline
    cases hline with
    | nil hgap => exact ⟨_, .blank hgap⟩
  | cons word ws =>
    rw [hwords] at hline
    by_cases hknown : ∃ keyword : Keyword, word = keyword.text.toList
    · obtain ⟨keyword, rfl⟩ := hknown
      have hvalues : (keyword.text :: ws.map String.ofList).map String.toList =
          keyword.text.toList :: ws := by
        simp
      exact ⟨.gives keyword (ws.map String.ofList), .gives (hvalues ▸ hline)⟩
    · exact ⟨.nothing, .other hline fun keyword heq => hknown ⟨keyword, heq⟩⟩

/-! ### All lines -/

theorem valuesOf_cons_gives (keyword k : Keyword) (values : List String) (said : List Statement) :
    valuesOf keyword (.gives k values :: said) =
      if k = keyword then values :: valuesOf keyword said else valuesOf keyword said := by
  by_cases hk : k = keyword <;> simp [valuesOf, hk]

theorem foldl_hear (said : List Statement) (r : Resolver) : said.foldl hear r =
    { nameservers := r.nameservers ++ (meaning said).nameservers
      domain := ((valuesOf .domain said).filterMap List.head?).getLast?.getD r.domain
      search := r.search ++ (meaning said).search
      options := r.options ++ (meaning said).options } := by
  induction said generalizing r with
  | nil => simp [meaning, valuesOf]
  | cons s said ih =>
    rw [List.foldl_cons, ih]
    cases s with
    | nothing => rfl
    | gives k values =>
      cases k with
      | nameserver =>
        cases values <;> simp [hear, meaning, valuesOf_cons_gives, List.filterMap_cons]
      | domain =>
        cases values <;>
          simp [hear, meaning, valuesOf_cons_gives, List.filterMap_cons, List.getLast?_cons]
      | search => simp [hear, meaning, valuesOf_cons_gives]
      | options => simp [hear, meaning, valuesOf_cons_gives]

theorem foldl_apply_of_said (h : List.Forall₂ Says lines said) (r : Resolver) :
    (lines.map significant).foldl apply r = said.foldl hear r := by
  induction h generalizing r with
  | nil => rfl
  | cons hline _ ih => rw [List.map_cons, List.foldl_cons, List.foldl_cons, apply_of_said hline, ih]

theorem foldl_apply_lines {text : List Char} (h : Joined lines text) (r : Resolver) :
    ((Text.lines text).map significant).foldl apply r = (lines.map significant).foldl apply r := by
  induction h generalizing r with
  | nil => rfl
  | last hline => rw [Text.lines, List.splitOn_eq_singleton hline]
  | @feed line rest lines hline _ ih =>
    rw [Text.lines, List.splitOn_append_cons_self_of_not_mem hline, List.map_cons, List.map_cons,
      List.foldl_cons, List.foldl_cons, ← ih, Text.lines]
  | @returnFeed line rest lines hline _ ih =>
    have hreturn : '\n' ∉ line ++ ['\r'] := by simpa using hline
    have hsplit : line ++ '\r' :: '\n' :: rest = (line ++ ['\r']) ++ '\n' :: rest := by simp
    rw [hsplit, Text.lines, List.splitOn_append_cons_self_of_not_mem hreturn, List.map_cons,
      List.map_cons, List.foldl_cons, List.foldl_cons, significant_append_return, ← ih, Text.lines]

/-- **The settings of a text are what its lines say.** -/
theorem ofText_eq_meaning {text : String} (hlines : Joined lines text.toList)
    (hsaid : List.Forall₂ Says lines said) : ofText text = meaning said := by
  rw [ofText, foldl_apply_lines hlines, foldl_apply_of_said hsaid, foldl_hear]
  rfl

/-! ### Every text -/

theorem Joined.cons {text : List Char} (h : Joined (line :: lines) text) {c : Char} (hc : c ≠ '\n') :
    Joined ((c :: line) :: lines) (c :: text) := by
  have hmem : '\n' ∉ line → '\n' ∉ c :: line := fun hline => by simp [hc.symm, hline]
  cases h with
  | last hline => exact .last (hmem hline)
  | feed hline hrest => exact .feed (hmem hline) hrest
  | returnFeed hline hrest => exact .returnFeed (hmem hline) hrest

theorem joined_lines (text : List Char) : Joined (Text.lines text) text := by
  induction text with
  | nil => exact .last List.not_mem_nil
  | cons c text ih =>
    obtain ⟨line, lines, hlines⟩ := List.exists_cons_of_ne_nil (List.splitOn_ne_nil '\n' text)
    rw [Text.lines, hlines] at ih
    rw [Text.lines, List.splitOn_cons_eq_if_modifyHead, hlines]
    split_ifs with hc
    · rw [beq_iff_eq] at hc
      subst hc
      exact .feed List.not_mem_nil ih
    · exact ih.cons fun heq => hc (beq_iff_eq.mpr heq)

theorem exists_joined_said (text : List Char) :
    ∃ lines said, Joined lines text ∧ List.Forall₂ Says lines said := by
  refine ⟨Text.lines text, ?_⟩
  suffices hall : ∀ lines : List (List Char), ∃ said, List.Forall₂ Says lines said by
    obtain ⟨said, hsaid⟩ := hall (Text.lines text)
    exact ⟨said, joined_lines text, hsaid⟩
  intro lines
  induction lines with
  | nil => exact ⟨[], .nil⟩
  | cons line lines ih =>
    obtain ⟨said, hsaid⟩ := ih
    obtain ⟨s, hs⟩ := exists_said line
    exact ⟨s :: said, .cons hs hsaid⟩

end AddressPool.Resolver
