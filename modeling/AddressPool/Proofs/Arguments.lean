import AddressPool.Arguments
import AddressPool.Proofs.Action
import AddressPool.Proofs.Address.Text
import Mathlib.Data.List.Forall2
import Mathlib.Tactic

/-!
# What arguments ask for

A pair says something, or it violates one of the conditions on pairs.  The first pair that does is
what the error is about, whatever stands behind it.  If there is none, the pairs are taken together:
the last truth decides about the keys that are not known, wherever they stand, and the last address
is asked for (`Arguments.requested_eq_iff`).
-/

namespace AddressPool.Arguments

/-! ### Pairs -/

/-- A pair is cut at its first equals sign. -/
structure Cut (pair key value : List Char) : Prop where
  eq : pair = key ++ '=' :: value
  notMem : '=' ∉ key

/-- The value spells a truth, in letters of either case. -/
def Spells (value : List Char) (b : Bool) : Prop :=
  String.ofList (value.map Char.toLower) = (if b then "1" else "0") ∨
    String.ofList (value.map Char.toLower) = (if b then "true" else "false")

/-- The value spells an address, blanks around it apart. -/
def Denotes (value : List Char) (a : Address) : Prop :=
  Address.parse? (Text.trim (String.ofList value)) = some a

/-- What a pair can say. -/
inductive Saying where
  | ignoreUnknown (b : Bool)
  | address (a : Address)
  | unknown (key : String)

/-- A pair says something. -/
inductive Says (pair : List Char) : Saying → Prop
  | ignoreUnknown {value : List Char} {b : Bool} : Cut pair "IgnoreUnknown".toList value →
      Spells value b → Says pair (.ignoreUnknown b)
  | address {value : List Char} {a : Address} : Cut pair "IP".toList value → Denotes value a →
      Says pair (.address a.canonical)
  | unknown {key value : List Char} : Cut pair key value → key ≠ "IgnoreUnknown".toList →
      key ≠ "IP".toList → Says pair (.unknown (String.ofList key))

/-- A pair violates a condition on pairs, with its error. -/
inductive Violates (pair : List Char) : Error → Prop
  | noSign : '=' ∉ pair → Violates pair (invalidPair pair)
  | noTruth {value : List Char} : Cut pair "IgnoreUnknown".toList value →
      (∀ b, ¬ Spells value b) → Violates pair (invalidTruth value)
  | noAddress {value : List Char} : Cut pair "IP".toList value → (∀ a, ¬ Denotes value a) →
      Violates pair (.badAddress (String.ofList value))

def truths (said : List Saying) : List Bool :=
  said.filterMap fun
    | .ignoreUnknown b => some b
    | _ => none

def addresses (said : List Saying) : List Address :=
  said.filterMap fun
    | .address a => some a
    | _ => none

def strangers (said : List Saying) : List String :=
  said.filterMap fun
    | .unknown key => some key
    | _ => none

/-- What pairs come to: the leftmost one that violates a condition is told, then the keys that are
not known, unless they are let pass, and otherwise the last address is asked for. -/
inductive Decided (pairs : List (List Char)) : Except Error (Option Address) → Prop
  | refused {before after : List (List Char)} {pair : List Char} {e : Error} :
      pairs = before ++ pair :: after → (∀ p ∈ before, ∃ s, Says p s) → Violates pair e →
      Decided pairs (.error e)
  | unknown {said : List Saying} : List.Forall₂ Says pairs said → strangers said ≠ [] →
      (truths said).getLast? ≠ some true → Decided pairs (.error (unknownKeys (strangers said)))
  | accepted {said : List Saying} : List.Forall₂ Says pairs said →
      strangers said = [] ∨ (truths said).getLast? = some true →
      Decided pairs (.ok (addresses said).getLast?)

variable {pair key value : List Char} {pairs : List (List Char)} {said : List Saying}
  {args : Arguments} {e : Error}

/-! ### One pair -/

theorem sides?_of_cut (h : Cut pair key value) : sides? pair = some (key, value) := by
  have hpass : ∀ c ∈ key, (c != '=') = true := fun c hc =>
    bne_iff_ne.mpr (ne_of_mem_of_not_mem hc h.notMem)
  rw [sides?, h.eq, List.dropWhile_append_of_pos hpass, List.takeWhile_append_of_pos hpass]
  simp

theorem sides?_of_notMem (h : '=' ∉ pair) : sides? pair = none := by
  have hpass : ∀ c ∈ pair, (c != '=') = true := fun c hc =>
    bne_iff_ne.mpr (ne_of_mem_of_not_mem hc h)
  have hdrop : pair.dropWhile (· != '=') = [] := by
    rw [← List.append_nil pair, List.dropWhile_append_of_pos hpass, List.dropWhile_nil]
  rw [sides?, hdrop]

theorem exists_cut (h : '=' ∈ pair) : ∃ key value, Cut pair key value := by
  obtain ⟨key, value, heq, hkey⟩ := List.eq_append_cons_of_mem h
  exact ⟨key, value, heq, hkey⟩

theorem truth?_eq_some_iff {b : Bool} : truth? value = some b ↔ Spells value b := by
  rw [truth?, Spells]
  generalize String.ofList (value.map Char.toLower) = s
  by_cases htrue : s = "1" ∨ s = "true"
  · rw [if_pos htrue]
    cases b with
    | true => exact iff_of_true rfl htrue
    | false => exact iff_of_false nofun (by rcases htrue with rfl | rfl <;> decide)
  · rw [if_neg htrue]
    cases b with
    | true => exact iff_of_false (by split_ifs <;> nofun) htrue
    | false => simp [or_iff_not_imp_left]

theorem truth?_eq_none_iff : truth? value = none ↔ ∀ b, ¬ Spells value b := by
  simp only [Option.eq_none_iff_forall_ne_some, ne_eq, truth?_eq_some_iff]

theorem read?_of_denotes {a : Address} (h : Denotes value a) :
    Address.read? (String.ofList value) = some a.canonical := by
  rw [Address.read?_eq_map, h, Option.map_some]

theorem read?_eq_none_iff : Address.read? (String.ofList value) = none ↔ ∀ a, ¬ Denotes value a := by
  rw [Address.read?_eq_map, Option.map_eq_none_iff, Option.eq_none_iff_forall_ne_some]
  rfl

def hear (args : Arguments) : Saying → Arguments
  | .ignoreUnknown b => { args with ignoreUnknown := b }
  | .address a => { args with address? := some a }
  | .unknown key => { args with unknown := args.unknown ++ [key] }

theorem add_of_said {s : Saying} (h : Says pair s) (args : Arguments) :
    args.add pair = .ok (args.hear s) := by
  cases h with
  | ignoreUnknown hcut hvalue =>
    rw [add, sides?_of_cut hcut]
    dsimp only
    rw [if_pos (by decide), truth?_eq_some_iff.mpr hvalue]
    rfl
  | address hcut hvalue =>
    rw [add, sides?_of_cut hcut]
    dsimp only
    rw [if_neg (by decide), if_pos (by decide), read?_of_denotes hvalue]
    rfl
  | unknown hcut htruth haddress =>
    rw [add, sides?_of_cut hcut]
    dsimp only
    rw [if_neg fun heq => htruth (by rw [← heq, String.toList_ofList]),
      if_neg fun heq => haddress (by rw [← heq, String.toList_ofList])]
    rfl

theorem add_of_violates (h : Violates pair e) (args : Arguments) : args.add pair = .error e := by
  cases h with
  | noSign hmem => rw [add, sides?_of_notMem hmem]
  | noTruth hcut hvalue =>
    rw [add, sides?_of_cut hcut]
    dsimp only
    rw [if_pos (by decide), truth?_eq_none_iff.mpr hvalue]
  | noAddress hcut hvalue =>
    rw [add, sides?_of_cut hcut]
    dsimp only
    rw [if_neg (by decide), if_pos (by decide), read?_eq_none_iff.mpr hvalue]

theorem says_or_violates (pair : List Char) : (∃ s, Says pair s) ∨ ∃ e, Violates pair e := by
  by_cases hmem : '=' ∈ pair
  swap
  · exact Or.inr ⟨_, .noSign hmem⟩
  obtain ⟨key, value, hcut⟩ := exists_cut hmem
  by_cases htruth : key = "IgnoreUnknown".toList
  · subst htruth
    by_cases hvalue : ∃ b, Spells value b
    · obtain ⟨b, hb⟩ := hvalue
      exact Or.inl ⟨_, .ignoreUnknown hcut hb⟩
    · exact Or.inr ⟨_, .noTruth hcut (not_exists.mp hvalue)⟩
  by_cases haddress : key = "IP".toList
  · subst haddress
    by_cases hvalue : ∃ a, Denotes value a
    · obtain ⟨a, ha⟩ := hvalue
      exact Or.inl ⟨_, .address hcut ha⟩
    · exact Or.inr ⟨_, .noAddress hcut (not_exists.mp hvalue)⟩
  · exact Or.inl ⟨_, .unknown hcut htruth haddress⟩

/-! ### All pairs -/

theorem addAll_cons (args : Arguments) (pair : List Char) (pairs : List (List Char)) :
    args.addAll (pair :: pairs) = args.add pair >>= fun args => args.addAll pairs := rfl

theorem addAll_of_said (h : List.Forall₂ Says pairs said) (args : Arguments) :
    args.addAll pairs = .ok (said.foldl hear args) := by
  induction h generalizing args with
  | nil => rfl
  | cons hpair _ ih => rw [addAll_cons, add_of_said hpair, ok_bind, ih, List.foldl_cons]

theorem addAll_of_violates {before : List (List Char)} (hbefore : ∀ p ∈ before, ∃ s, Says p s)
    (h : Violates pair e) (after : List (List Char)) (args : Arguments) :
    args.addAll (before ++ pair :: after) = .error e := by
  induction before generalizing args with
  | nil =>
    rw [List.nil_append, addAll_cons, add_of_violates h]
    rfl
  | cons p before ih =>
    obtain ⟨⟨s, hs⟩, hbefore⟩ := List.forall_mem_cons.mp hbefore
    rw [List.cons_append, addAll_cons, add_of_said hs, ok_bind, ih hbefore]

theorem said_or_refused (pairs : List (List Char)) : (∃ said, List.Forall₂ Says pairs said) ∨
    ∃ before pair after e, pairs = before ++ pair :: after ∧ (∀ p ∈ before, ∃ s, Says p s) ∧
      Violates pair e := by
  induction pairs with
  | nil => exact Or.inl ⟨[], .nil⟩
  | cons pair pairs ih =>
    rcases says_or_violates pair with ⟨s, hs⟩ | ⟨e, he⟩
    swap
    · exact Or.inr ⟨[], pair, pairs, e, rfl, List.forall_mem_nil _, he⟩
    rcases ih with ⟨said, hsaid⟩ | ⟨before, p, after, e, rfl, hbefore, he⟩
    · exact Or.inl ⟨s :: said, .cons hs hsaid⟩
    · exact Or.inr ⟨pair :: before, p, after, e, rfl,
        List.forall_mem_cons.mpr ⟨⟨s, hs⟩, hbefore⟩, he⟩

theorem foldl_hear (said : List Saying) (args : Arguments) : said.foldl hear args =
    { address? := (addresses said).getLast?.or args.address?
      ignoreUnknown := (truths said).getLast?.getD args.ignoreUnknown
      unknown := args.unknown ++ strangers said } := by
  induction said generalizing args with
  | nil => simp [addresses, truths, strangers]
  | cons s said ih =>
    rw [List.foldl_cons, ih]
    cases s with
    | ignoreUnknown b => simp [hear, addresses, truths, strangers, List.getLast?_cons]
    | address a => simp [hear, addresses, truths, strangers, List.getLast?_cons]
    | unknown key => simp [hear, addresses, truths, strangers]

/-! ### The verdict -/

section Text

variable {text : String} (htext : text ≠ "") {v : Except Error (Option Address)}
include htext

theorem requested_of_said (h : List.Forall₂ Says (text.toList.splitOn ';') said) :
    requested text =
      if strangers said = [] ∨ (truths said).getLast? = some true then .ok (addresses said).getLast?
      else .error (unknownKeys (strangers said)) := by
  have htruth : (truths said).getLast?.getD false = true ↔ (truths said).getLast? = some true := by
    cases (truths said).getLast? <;> simp
  rw [requested, if_neg (by simpa using htext), addAll_of_said h, foldl_hear]
  simp [htruth]

theorem requested_of_decided (h : Decided (text.toList.splitOn ';') v) : requested text = v := by
  cases h with
  | refused hpairs hbefore hpair =>
    rw [requested, if_neg (by simpa using htext), hpairs, addAll_of_violates hbefore hpair]
  | unknown hsaid hstrangers htruth =>
    rw [requested_of_said htext hsaid, if_neg (not_or.mpr ⟨hstrangers, htruth⟩)]
  | accepted hsaid hpass => rw [requested_of_said htext hsaid, if_pos hpass]

theorem decided_requested : Decided (text.toList.splitOn ';') (requested text) := by
  rcases said_or_refused (text.toList.splitOn ';') with
    ⟨said, hsaid⟩ | ⟨before, pair, after, e, hpairs, hbefore, hpair⟩
  · rw [requested_of_said htext hsaid]
    split_ifs with hpass
    · exact .accepted hsaid hpass
    · obtain ⟨hstrangers, htruth⟩ := not_or.mp hpass
      exact .unknown hsaid hstrangers htruth
  · have hrefused := Decided.refused hpairs hbefore hpair
    rwa [requested_of_decided htext hrefused]

/-- **Arguments ask for what their pairs come to.** -/
theorem requested_eq_iff (v : Except Error (Option Address)) :
    requested text = v ↔ Decided (text.toList.splitOn ';') v :=
  ⟨fun h => h ▸ decided_requested htext, requested_of_decided htext⟩

end Text

/-- Unknown keys, an address in its longer form, and two truths of which the last one lets the keys
pass. -/
def mixedText : String :=
  "A=1;IgnoreUnknown=0;IP= ::ffff:10.0.0.5 ;IgnoreUnknown=TRUE;B=x=y"

theorem requested_eq_iff_mixedText :
    mixedText ≠ "" ∧ requested mixedText = .ok (some (.ofNat .v4 0x0A000005)) ∧
    Decided (mixedText.toList.splitOn ';') (.ok (some (.ofNat .v4 0x0A000005))) := by
  have htext : mixedText ≠ "" := by decide
  have hrequested : requested mixedText = .ok (some (.ofNat .v4 0x0A000005)) := rfl
  exact ⟨htext, hrequested, (requested_eq_iff htext _).mp hrequested⟩

end AddressPool.Arguments
