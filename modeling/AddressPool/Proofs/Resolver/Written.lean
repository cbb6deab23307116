import AddressPool.Proofs.Resolver
import Mathlib.Tactic

/-!
# Reading resolver settings back

Settings are written in lines, one for each server and one for each other keyword that has values.
If all values are words, these lines say what the settings are, whatever lines that say nothing are
put between them, so the settings are read back (`Resolver.ofText_spec`).
-/

namespace AddressPool.Resolver

open AddressPool.Text

/-- The text is a word. -/
def IsWord (s : String) : Prop :=
  s.toList ≠ [] ∧ ∀ c ∈ s.toList, isBlank c = false

instance (s : String) : Decidable (IsWord s) :=
  decidable_of_iff (s.toList ≠ [] ∧ s.toList.all (!isBlank ·) = true) (by simp [IsWord])

/-- The values are words; the domain may be missing. -/
structure Plain (r : Resolver) : Prop where
  nameservers : ∀ s ∈ r.nameservers, IsWord s
  domain : r.domain = "" ∨ IsWord r.domain
  search : ∀ s ∈ r.search, IsWord s
  options : ∀ s ∈ r.options, IsWord s

/-- A statement about the values of a keyword, if there are any. -/
def stated (keyword : Keyword) (values : List String) : List Statement :=
  if values = [] then [] else [.gives keyword values]

def statements (r : Resolver) : List Statement :=
  r.nameservers.map (fun server => .gives .nameserver [server]) ++
    stated .domain (if r.domain = "" then [] else [r.domain]) ++ stated .search r.search ++
      stated .options r.options

def Statement.line : Statement → List Char
  | .gives keyword values => spaced ((keyword.text :: values).map String.toList)
  | .nothing => []

def written (r : Resolver) : List (List Char) :=
  r.statements.map Statement.line

def text (r : Resolver) : String :=
  String.ofList (r.written.flatMap (· ++ ['\n']))

/-- Lines that say nothing are put between some lines. -/
inductive Padded : List (List Char) → List (List Char) → Prop
  | nil : Padded [] []
  | keep {line : List Char} {lines padded : List (List Char)} : Padded lines padded →
      Padded (line :: lines) (line :: padded)
  | put {line : List Char} {lines padded : List (List Char)} : Says line .nothing →
      Padded lines padded → Padded lines (line :: padded)

variable {r : Resolver} {line : List Char} {lines padded : List (List Char)}
  {said : List Statement}

/-! ### What settings state -/

theorem valuesOf_append (keyword : Keyword) (said said' : List Statement) :
    valuesOf keyword (said ++ said') = valuesOf keyword said ++ valuesOf keyword said' :=
  List.filterMap_append

theorem valuesOf_stated (keyword k : Keyword) (values : List String) :
    valuesOf keyword (stated k values) = if k = keyword ∧ values ≠ [] then [values] else [] := by
  by_cases hvalues : values = [] <;> by_cases hk : k = keyword <;>
    simp [stated, valuesOf, hvalues, hk]

theorem valuesOf_servers (keyword : Keyword) (servers : List String) :
    valuesOf keyword (servers.map fun server => .gives .nameserver [server]) =
      if keyword = .nameserver then servers.map ([·]) else [] := by
  induction servers with
  | nil => simp [valuesOf]
  | cons server servers ih =>
    rw [List.map_cons, valuesOf_cons_gives, ih]
    by_cases hk : keyword = .nameserver
    · simp [hk]
    · simp [hk, Ne.symm hk]

theorem meaning_statements (r : Resolver) : meaning r.statements = r := by
  obtain ⟨nameservers, domain, search, options⟩ := r
  simp only [meaning, statements, valuesOf_append, valuesOf_servers, valuesOf_stated,
    Resolver.mk.injEq]
  refine ⟨?_, ?_, ?_, ?_⟩
  · simp [List.filterMap_map, Function.comp_def]
  · by_cases hdomain : domain = "" <;> simp [hdomain]
  · by_cases hsearch : search = [] <;> simp [hsearch]
  · by_cases hoptions : options = [] <;> simp [hoptions]

/-- The values of a statement are words. -/
def Statement.Plain : Statement → Prop
  | .gives _ values => ∀ s ∈ values, IsWord s
  | .nothing => True

theorem plain_stated {keyword : Keyword} {values : List String} (h : ∀ s ∈ values, IsWord s) :
    ∀ s ∈ stated keyword values, s.Plain := by
  intro s hs
  rw [stated] at hs
  split_ifs at hs
  · cases hs
  · rw [List.mem_singleton] at hs
    subst hs
    exact h

theorem plain_statements (h : r.Plain) : ∀ s ∈ r.statements, s.Plain := by
  have hdomain : ∀ s ∈ if r.domain = "" then [] else [r.domain], IsWord s := by
    split_ifs with hempty
    · simp
    · simpa using h.domain.resolve_left hempty
  intro s hs
  simp only [statements, List.mem_append] at hs
  rcases hs with ((hs | hs) | hs) | hs
  · obtain ⟨server, hserver, rfl⟩ := List.mem_map.mp hs
    exact List.forall_mem_singleton.mpr (h.nameservers server hserver)
  · exact plain_stated hdomain s hs
  · exact plain_stated h.search s hs
  · exact plain_stated h.options s hs

/-! ### What is written -/

theorem isWord_keyword (keyword : Keyword) : IsWord keyword.text := by
  cases keyword <;> decide

theorem isWord_of_mem {keyword : Keyword} {values : List String} (h : ∀ s ∈ values, IsWord s) :
    ∀ word ∈ (keyword.text :: values).map String.toList,
      word ≠ [] ∧ ∀ c ∈ word, isBlank c = false := by
  intro word hword
  obtain ⟨value, hvalue, rfl⟩ := List.mem_map.mp hword
  rcases List.mem_cons.mp hvalue with rfl | hvalue
  · exact isWord_keyword keyword
  · exact h value hvalue

theorem says_line {s : Statement} (h : s.Plain) : Says s.line s := by
  cases s with
  | nothing => exact .blank (List.forall_mem_nil _)
  | gives keyword values => exact .gives (words_eq_iff.mp (words_spaced (isWord_of_mem h)))

theorem newline_notMem_line {s : Statement} (h : s.Plain) : '\n' ∉ s.line := by
  cases s with
  | nothing => exact List.not_mem_nil
  | gives keyword values =>
    refine notMem_spaced (by decide) fun word hword hmem => ?_
    exact absurd ((isWord_of_mem h word hword).2 _ hmem) (by decide)

theorem says_written (h : r.Plain) : List.Forall₂ Says r.written r.statements := by
  rw [written, List.forall₂_map_left_iff, List.forall₂_same]
  exact fun s hs => says_line (plain_statements h s hs)

theorem joined_flatMap (h : ∀ line ∈ lines, '\n' ∉ line) :
    Joined lines (lines.flatMap (· ++ ['\n'])) := by
  induction lines with
  | nil => exact .nil
  | cons line lines ih =>
    obtain ⟨hline, hlines⟩ := List.forall_mem_cons.mp h
    rw [List.flatMap_cons, List.append_assoc]
    exact .feed hline (ih hlines)

theorem joined_text (h : r.Plain) : Joined r.written r.text.toList := by
  rw [text, String.toList_ofList]
  refine joined_flatMap fun line hline => ?_
  obtain ⟨s, hs, rfl⟩ := List.mem_map.mp hline
  exact newline_notMem_line (plain_statements h s hs)

/-! ### What is put between -/

theorem valuesOf_padded (h : Padded lines padded) (hsaid : List.Forall₂ Says lines said) :
    ∃ heard, List.Forall₂ Says padded heard ∧
      ∀ keyword, valuesOf keyword heard = valuesOf keyword said := by
  induction h generalizing said with
  | nil => exact ⟨said, hsaid, fun _ => rfl⟩
  | keep _ ih =>
    cases hsaid with
    | @cons _ s _ said hline hsaid =>
      obtain ⟨heard, hheard, hvalues⟩ := ih hsaid
      refine ⟨s :: heard, .cons hline hheard, fun keyword => ?_⟩
      cases s with
      | nothing => exact hvalues keyword
      | gives k values => rw [valuesOf_cons_gives, valuesOf_cons_gives, hvalues]
  | put hnothing _ ih =>
    obtain ⟨heard, hheard, hvalues⟩ := ih hsaid
    exact ⟨.nothing :: heard, .cons hnothing hheard, hvalues⟩

theorem meaning_eq_of_valuesOf {heard : List Statement}
    (h : ∀ keyword, valuesOf keyword heard = valuesOf keyword said) :
    meaning heard = meaning said := by
  rw [meaning, h, h, h, h, meaning]

/-! ### Reading -/

/-- **The settings of a text are what its lines say, and settings whose values are words are read back
from their lines, with lines that say nothing between them.** -/
theorem ofText_spec :
    (∀ text : List Char, ∃ lines said, Joined lines text ∧ List.Forall₂ Says lines said) ∧
    (∀ (text : String) (lines : List (List Char)) (said : List Statement),
      Joined lines text.toList → List.Forall₂ Says lines said → ofText text = meaning said) ∧
    ∀ r : Resolver, r.Plain → Joined r.written r.text.toList ∧
      ∀ (text : String) (padded : List (List Char)), Padded r.written padded →
        Joined padded text.toList → ofText text = r := by
  refine ⟨exists_joined_said, fun text lines said => ofText_eq_meaning, fun r hplain => ?_⟩
  refine ⟨joined_text hplain, fun text padded hpadded hjoined => ?_⟩
  obtain ⟨heard, hheard, hvalues⟩ := valuesOf_padded hpadded (says_written hplain)
  rw [ofText_eq_meaning hjoined hheard, meaning_eq_of_valuesOf hvalues, meaning_statements]

/-- Lines with blanks of several kinds, values that do not count, and two domains. -/
def mixedLines : List (List Char) :=
  ["\u3000nameserver\t10.0.0.1 10.0.0.2".toList, " # nameserver 10.0.0.3".toList, "domain a".toList,
    "domain".toList, "sortlist #".toList, "".toList, "search x  y\x0c".toList]

def mixedStatements : List Statement :=
  [.gives .nameserver ["10.0.0.1", "10.0.0.2"], .nothing, .gives .domain ["a"], .gives .domain [],
    .nothing, .nothing, .gives .search ["x", "y"]]

def mixedText : String :=
  "\u3000nameserver\t10.0.0.1 10.0.0.2\r\n # nameserver 10.0.0.3\ndomain a\r\ndomain\n" ++
    "sortlist #\n\r\nsearch x  y\x0c"

def plainSettings : Resolver := ⟨["10.0.0.1", "::1"], "a", ["x", "#y"], []⟩

/-- Lines of settings without options, with a comment, an empty line and one that is not known. -/
def plainPadded : List (List Char) :=
  ["nameserver 10.0.0.1".toList, "; search z".toList, "nameserver ::1".toList, "domain a".toList,
    "".toList, "search x #y".toList, "sortlist z".toList]

theorem ofText_spec_mixedText :
    Joined mixedLines mixedText.toList ∧ List.Forall₂ Says mixedLines mixedStatements ∧
    ofText mixedText = ⟨["10.0.0.1"], "a", ["x", "y"], []⟩ ∧
    plainSettings.Plain ∧ Padded plainSettings.written plainPadded ∧
    ofText (String.ofList (plainPadded.flatMap (· ++ ['\n']))) = plainSettings := by
  have hjoined : Joined mixedLines mixedText.toList := by
    have htext : mixedText.toList = "\u3000nameserver\t10.0.0.1 10.0.0.2".toList ++ '\r' :: '\n' ::
        (" # nameserver 10.0.0.3".toList ++ '\n' :: ("domain a".toList ++ '\r' :: '\n' ::
          ("domain".toList ++ '\n' :: ("sortlist #".toList ++ '\n' :: ("".toList ++ '\r' :: '\n' ::
            "search x  y\x0c".toList))))) := by
      decide
    rw [htext]
    exact .returnFeed (by decide) (.feed (by decide) (.returnFeed (by decide) (.feed (by decide)
      (.feed (by decide) (.returnFeed (by decide) (.last (by decide)))))))
  have hunknown : ∀ keyword : Keyword, "sortlist".toList ≠ keyword.text.toList := by
    intro keyword
    cases keyword <;> decide
  have hsaid : List.Forall₂ Says mixedLines mixedStatements :=
    .cons (.gives (words_eq_iff.mp (by decide))) <|
    .cons (@Says.comment [' '] _ '#' (by decide) (by decide)) <|
    .cons (.gives (words_eq_iff.mp (by decide))) <|
    .cons (.gives (words_eq_iff.mp (by decide))) <|
    .cons (@Says.other _ "sortlist".toList ["#".toList] (words_eq_iff.mp (by decide)) hunknown) <|
    .cons (.blank (by decide)) <|
    .cons (.gives (words_eq_iff.mp (by decide))) .nil
  have hplain : plainSettings.Plain :=
    ⟨by decide, Or.inr (by decide), by decide, by decide⟩
  have hpadded : Padded plainSettings.written plainPadded := by
    have hwritten : plainSettings.written = ["nameserver 10.0.0.1".toList, "nameserver ::1".toList,
        "domain a".toList, "search x #y".toList] := by
      decide
    rw [hwritten]
    exact .keep <| .put (@Says.comment [] _ ';' (by decide) (by decide)) <| .keep <|
      .keep <| .put (.blank (by decide)) <| .keep <|
      .put (@Says.other _ "sortlist".toList ["z".toList] (words_eq_iff.mp (by decide)) hunknown) .nil
  refine ⟨hjoined, hsaid, ?_, hplain, hpadded, ?_⟩
  · rw [ofText_spec.2.1 mixedText mixedLines mixedStatements hjoined hsaid]
    decide
  · refine (ofText_spec.2.2 plainSettings hplain).2 _ plainPadded hpadded ?_
    rw [String.toList_ofList]
    exact joined_flatMap (by decide)

end AddressPool.Resolver
