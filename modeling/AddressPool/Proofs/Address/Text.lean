import AddressPool.Address.Text
import AddressPool.Proofs.Text.Blank
import AddressPool.Proofs.Text.Number
import Mathlib.Tactic

/-!
# Reading addresses back

`ofChars?_chars`: the text of an address is read as that address, in either spelling.  So no two
addresses share a text (`text_injective`), which is what lets a store know addresses by their texts.

The text of an address of the longer family has at most one gap `::`, and the gap is found where it
was left: what stands before it is a list of groups between single colons (`splitGap_colons`).  The
zeros that the gap replaces are as many as are missing from eight (`longestZeros_spec`).
-/

namespace AddressPool.Address

open AddressPool.Text

/-! ### The words of a number -/

theorem ofWords_append_singleton (base : Nat) (ws : List Nat) (w : Nat) :
    ofWords base (ws ++ [w]) = base * ofWords base ws + w := by
  simp [ofWords]

theorem ofWords_words (base count n : Nat) :
    ofWords base (words base count n) = n % base ^ count := by
  induction count generalizing n with
  | zero => simp [words, ofWords, Nat.mod_one]
  | succ count ih =>
    rw [words, ofWords_append_singleton, ih, Nat.pow_succ, Nat.mul_comm (base ^ count) base,
      Nat.mod_mul, Nat.add_comm]

/-! ### The shorter family -/

theorem dot_notMem_digits {base : Nat} (hbase : 1 < base) (hle : base ≤ 16) (n : Nat) :
    '.' ∉ digits base n := fun h =>
  absurd (mem_figures_of_mem_digits hbase hle _ h) (by decide)

theorem colon_notMem_digits {base : Nat} (hbase : 1 < base) (hle : base ≤ 16) (n : Nat) :
    ':' ∉ digits base n := fun h =>
  absurd (mem_figures_of_mem_digits hbase hle _ h) (by decide)

theorem octet?_digits (sp : Spelling) {w : Nat} (hw : w < 256) :
    octet? sp (digits 10 w) = some w := by
  rw [octet?, if_neg]
  · exact number?_digits (by norm_num) (by norm_num) (by norm_num) (by omega) hw
  · intro h
    simp only [Bool.and_eq_true, beq_iff_eq, bne_iff_ne] at h
    obtain ⟨⟨-, hhead⟩, hlen⟩ := h
    obtain rfl := head?_digits (by norm_num) (by norm_num) hhead
    exact hlen rfl

theorem splitOn_dotted (n : Nat) :
    (dotted n).splitOn '.' = (words 256 4 n).map (digits 10) := by
  rw [dotted, List.splitOn_intercalate]
  · intro l hl
    obtain ⟨w, -, rfl⟩ := List.mem_map.mp hl
    exact dot_notMem_digits (by norm_num) (by norm_num) w
  · simp [words]

theorem dotted?_dotted (sp : Spelling) {n : Nat} (hn : n < Family.v4.size) :
    dotted? sp (dotted n) = some n := by
  have hsize : Family.v4.size = 256 ^ 4 := by norm_num [Family.size, Family.bits]
  have hwords := ofWords_words 256 4 n
  rw [Nat.mod_eq_of_lt (by omega)] at hwords
  rw [dotted?, splitOn_dotted]
  simp only [words, List.nil_append, List.cons_append, List.map_cons, List.map_nil] at hwords ⊢
  simp [octet?_digits sp (Nat.mod_lt _ (by norm_num : 256 > 0)), hwords]

theorem dotted?_eq_none (sp : Spelling) {cs : List Char} (hdot : '.' ∉ cs) :
    dotted? sp cs = none := by
  rw [dotted?, List.splitOn_eq_singleton hdot]

theorem mem_dotted {n : Nat} {c : Char} (hc : c ∈ dotted n) : c ∈ figures ∨ c = '.' := by
  simp only [dotted, words, List.nil_append, List.cons_append, List.map_cons, List.map_nil,
    List.intercalate_cons_cons, List.intercalate_singleton, List.mem_append,
    List.mem_singleton] at hc
  have hfig : ∀ w, c ∈ digits 10 w → c ∈ figures := fun w =>
    mem_figures_of_mem_digits (by norm_num) (by norm_num) c
  grind

/-! ### Groups between colons -/

theorem colons_cons_cons (g h : Nat) (gs : List Nat) :
    colons (g :: h :: gs) = digits 16 g ++ ':' :: colons (h :: gs) := by
  simp [colons, List.intercalate_cons_cons]

theorem mem_colons {gs : List Nat} {c : Char} (hc : c ∈ colons gs) : c ∈ figures ∨ c = ':' := by
  induction gs with
  | nil => simp [colons] at hc
  | cons g gs ih =>
    have hfig : c ∈ digits 16 g → c ∈ figures :=
      mem_figures_of_mem_digits (by norm_num) (by norm_num) c
    cases gs with
    | nil => exact Or.inl (hfig (by simpa [colons] using hc))
    | cons h gs =>
      rw [colons_cons_cons, List.mem_append, List.mem_cons] at hc
      rcases hc with hc | hc | hc
      · exact Or.inl (hfig hc)
      · exact Or.inr hc
      · exact ih hc

theorem head_colons (g : Nat) (gs : List Nat) :
    ∃ c cs, colons (g :: gs) = c :: cs ∧ c ∈ figures := by
  obtain ⟨c, cs, hcs⟩ := List.exists_cons_of_ne_nil (digits_ne_nil 16 g)
  have hmem : c ∈ digits 16 g := by simp [hcs]
  have hc : c ∈ figures := mem_figures_of_mem_digits (by norm_num) (by norm_num) c hmem
  cases gs with
  | nil => exact ⟨c, cs, by simp [colons, hcs], hc⟩
  | cons h gs => exact ⟨c, cs ++ ':' :: colons (h :: gs), by simp [colons_cons_cons, hcs], hc⟩

theorem pieces_colons (gs : List Nat) : pieces (colons gs) = gs.map (digits 16) := by
  cases gs with
  | nil => rfl
  | cons g gs =>
    obtain ⟨c, cs, hcs, -⟩ := head_colons g gs
    rw [pieces, if_neg (by simp [hcs]), colons, List.splitOn_intercalate]
    · intro l hl
      obtain ⟨w, -, rfl⟩ := List.mem_map.mp hl
      exact colon_notMem_digits (by norm_num) (by norm_num) w
    · simp

theorem group?_digits {g : Nat} (hg : g < 65536) : group? (digits 16 g) = some g :=
  number?_digits (by norm_num) (by norm_num) (by norm_num) (by omega) hg

theorem groups?_digits (sp : Spelling) (tail : Bool) {gs : List Nat} (hgs : ∀ g ∈ gs, g < 65536) :
    groups? sp tail (gs.map (digits 16)) = some gs := by
  induction gs with
  | nil => rfl
  | cons g gs ih =>
    have hg := group?_digits (hgs g (by simp))
    cases gs with
    | nil =>
      have hnone := dotted?_eq_none sp
        (dot_notMem_digits (by norm_num : 1 < 16) (by norm_num) g)
      simp [groups?, hnone, hg]
    | cons h gs =>
      have hrest := ih (fun x hx => hgs x (List.mem_cons_of_mem _ hx))
      rw [List.map_cons] at hrest
      simp [groups?, hg, hrest]

/-! ### The gap -/

theorem splitGap_append {cs : List Char} (hcs : ':' ∉ cs) (rest : List Char) :
    splitGap (cs ++ rest) = (splitGap rest).map fun (front, back) => (cs ++ front, back) := by
  induction cs with
  | nil => simp
  | cons c cs ih =>
    have hc : ¬ c = ':' := fun h => hcs (by simp [h])
    have htail := ih fun h => hcs (List.mem_cons_of_mem _ h)
    rw [List.cons_append]
    cases hall : cs ++ rest with
    | nil =>
      obtain ⟨rfl, rfl⟩ := List.append_eq_nil_iff.mp hall
      rfl
    | cons d ds =>
      rw [splitGap, if_neg (fun h => hc h.1), ← hall, htail, Option.map_map]
      rfl

theorem splitGap_colons (gs : List Nat) (rest : List Char) :
    splitGap (colons gs ++ rest) =
      (splitGap rest).map fun (front, back) => (colons gs ++ front, back) := by
  induction gs with
  | nil => simp [colons]
  | cons g gs ih =>
    have hg := colon_notMem_digits (by norm_num : 1 < 16) (by norm_num) g
    cases gs with
    | nil => simpa [colons] using splitGap_append hg rest
    | cons h gs =>
      obtain ⟨c, cs, hcs, hc⟩ := head_colons h gs
      have hne : ¬ c = ':' := by
        rintro rfl
        exact absurd hc (by decide)
      have hsingle : splitGap (':' :: (colons (h :: gs) ++ rest)) =
          (splitGap (colons (h :: gs) ++ rest)).map
            fun (front, back) => (':' :: front, back) := by
        rw [hcs, List.cons_append, splitGap, if_neg (fun h => hne h.2)]
      rw [colons_cons_cons, List.append_assoc, List.cons_append, splitGap_append hg, hsingle, ih,
        Option.map_map, Option.map_map]
      congr 1
      funext ⟨front, back⟩
      simp

theorem zerosAtFront_spec (gs : List Nat) {count : Nat} (hcount : count ≤ zerosAtFront gs) :
    gs = List.replicate count 0 ++ gs.drop count := by
  induction gs generalizing count with
  | nil =>
    obtain rfl : count = 0 := by simpa [zerosAtFront] using hcount
    rfl
  | cons g gs ih =>
    cases count with
    | zero => rfl
    | succ count =>
      by_cases hg : g = 0
      · subst hg
        have hrest : count ≤ zerosAtFront gs := by simpa [zerosAtFront] using hcount
        have := ih hrest
        rw [List.replicate_succ, List.cons_append, List.drop_succ_cons, ← this]
      · simp [zerosAtFront, hg] at hcount

theorem longestZeros_spec (gs : List Nat) :
    (longestZeros gs).2 ≤ zerosAtFront (gs.drop (longestZeros gs).1) := by
  have hstep : ∀ (is : List Nat) (best : Nat × Nat), best.2 ≤ zerosAtFront (gs.drop best.1) →
      (is.foldl (fun best i =>
        let count := zerosAtFront (gs.drop i)
        if best.2 < count then (i, count) else best) best).2 ≤
      zerosAtFront (gs.drop (is.foldl (fun best i =>
        let count := zerosAtFront (gs.drop i)
        if best.2 < count then (i, count) else best) best).1) := by
    intro is
    induction is with
    | nil => exact fun _ h => h
    | cons i is ih =>
      intro best hbest
      refine ih _ ?_
      dsimp only
      split_ifs
      · exact le_refl _
      · exact hbest
  exact hstep _ _ (Nat.zero_le _)

/-! ### The longer family -/

theorem eightGroups?_compressed (sp : Spelling) {gs : List Nat} (hlen : gs.length = 8)
    (hgs : ∀ g ∈ gs, g < 65536) : eightGroups? sp (compressed gs) = some gs := by
  have hspec := zerosAtFront_spec _ (longestZeros_spec gs)
  rw [compressed, eightGroups?]
  generalize longestZeros gs = run at hspec ⊢
  obtain ⟨start, count⟩ := run
  dsimp only at hspec ⊢
  split_ifs with hcount
  · -- the gap stands between the groups before and after the run
    have hfront : groups? sp false ((gs.take start).map (digits 16)) = some (gs.take start) :=
      groups?_digits sp false fun g hg => hgs g (List.mem_of_mem_take hg)
    have hback : groups? sp true ((gs.drop (start + count)).map (digits 16)) =
        some (gs.drop (start + count)) :=
      groups?_digits sp true fun g hg => hgs g (List.mem_of_mem_drop hg)
    have hsplit : gs = gs.take start ++ (List.replicate count 0 ++ gs.drop (start + count)) := by
      rw [List.drop_drop] at hspec
      rw [← hspec, List.take_append_drop]
    have htotal := congrArg List.length hsplit
    simp only [List.length_append, List.length_replicate] at htotal
    have hsum : (gs.take start).length + (gs.drop (start + count)).length + count = 8 := by omega
    rw [List.append_assoc, splitGap_colons]
    simp only [List.cons_append, List.nil_append, splitGap, and_self, ↓reduceIte, Option.map_some,
      List.append_nil]
    rw [pieces_colons, pieces_colons, hfront, hback]
    simp only [Option.bind_eq_bind, Option.bind_some]
    rw [if_pos (by
      simp only [Bool.and_eq_true, decide_eq_true_eq, Bool.or_eq_true]
      omega)]
    have hmissing : 8 - ((gs.take start).length + (gs.drop (start + count)).length) = count := by
      omega
    rw [hmissing, List.append_assoc, ← hsplit]
    rfl
  · have hnone : splitGap (colons gs) = none := by
      simpa [splitGap] using splitGap_colons gs []
    rw [hnone]
    simp only [pieces_colons, groups?_digits sp true hgs]
    simp [hlen]

theorem words_lt {base : Nat} (hbase : 0 < base) (count n : Nat) :
    ∀ w ∈ words base count n, w < base := by
  induction count generalizing n with
  | zero => simp [words]
  | succ count ih =>
    intro w hw
    rw [words, List.mem_append, List.mem_singleton] at hw
    rcases hw with hw | rfl
    · exact ih _ w hw
    · exact Nat.mod_lt _ hbase

theorem mem_compressed {gs : List Nat} {c : Char} (hc : c ∈ compressed gs) :
    c ∈ figures ∨ c = ':' := by
  rw [compressed] at hc
  dsimp only at hc
  split_ifs at hc
  · simp only [List.mem_append, List.mem_cons, List.not_mem_nil, or_false] at hc
    rcases hc with (hc | hc) | hc
    · exact mem_colons hc
    · exact Or.inr (by tauto)
    · exact mem_colons hc
  · exact mem_colons hc

theorem dotted?_mark (sp : Spelling) (n : Nat) :
    dotted? sp ("::ffff:".toList ++ dotted n) = none := by
  have hlong : octet? sp ("::ffff:".toList ++ digits 10 (n / 256 / 256 / 256 % 256)) = none := by
    have : ∀ cs, number? 10 3 256 ("::ffff:".toList ++ cs) = none := fun cs => by
      simp [number?]
    rw [octet?, this, ite_self]
  have hdot : ∀ w, '.' ∉ digits 10 w := dot_notMem_digits (by norm_num) (by norm_num)
  have hsplit : ("::ffff:".toList ++ dotted n).splitOn '.' =
      ["::ffff:".toList ++ digits 10 (n / 256 / 256 / 256 % 256), digits 10 (n / 256 / 256 % 256),
        digits 10 (n / 256 % 256), digits 10 (n % 256)] := by
    have hjoin : "::ffff:".toList ++ dotted n = ['.'].intercalate
        ["::ffff:".toList ++ digits 10 (n / 256 / 256 / 256 % 256), digits 10 (n / 256 / 256 % 256),
          digits 10 (n / 256 % 256), digits 10 (n % 256)] := by
      simp [dotted, words, List.intercalate_cons_cons]
    rw [hjoin, List.splitOn_intercalate _ _ (by simp)]
    intro l hl
    simp only [List.mem_cons, List.not_mem_nil, or_false] at hl
    rcases hl with rfl | rfl | rfl | rfl
    · rw [List.mem_append, not_or]
      exact ⟨by decide, hdot _⟩
    · exact hdot _
    · exact hdot _
    · exact hdot _
  rw [dotted?, hsplit]
  simp only [List.mapM_cons, hlong]
  rfl

theorem eightGroups?_mark (sp : Spelling) {n : Nat} (hn : n < Family.v4.size) :
    eightGroups? sp ("::ffff:".toList ++ dotted n) =
      some ([0, 0, 0, 0, 0] ++ 0xFFFF :: words 65536 2 n) := by
  have hgap : splitGap ("::ffff:".toList ++ dotted n) = some ([], "ffff:".toList ++ dotted n) := rfl
  have hcolon : ':' ∉ dotted n := fun h => by
    rcases mem_dotted h with h | h
    · exact absurd h (by decide)
    · exact absurd h (by decide)
  have hpieces : pieces ("ffff:".toList ++ dotted n) = ["ffff".toList, dotted n] := by
    rw [pieces, if_neg (by simp)]
    have hjoin : "ffff:".toList ++ dotted n = [':'].intercalate ["ffff".toList, dotted n] := by
      simp [List.intercalate_cons_cons]
    rw [hjoin, List.splitOn_intercalate _ _ (by simp)]
    intro l hl
    simp only [List.mem_cons, List.not_mem_nil, or_false] at hl
    rcases hl with rfl | rfl
    · decide
    · exact hcolon
  have hmark : group? "ffff".toList = some 0xFFFF := by decide
  have hgroups : groups? sp true ["ffff".toList, dotted n] =
      some (0xFFFF :: words 65536 2 n) := by
    simp only [groups?, hmark, dotted?_dotted sp hn]
    rfl
  rw [eightGroups?, hgap]
  dsimp only
  rw [hpieces, hgroups]
  simp [pieces, groups?]

/-! ### Both families -/

/-- **What is written as an address is read as that address.** -/
theorem ofChars?_chars (sp : Spelling) (a : Address) : ofChars? sp a.chars = some a := by
  obtain ⟨f, v, hv⟩ := a
  cases f with
  | v4 =>
    rw [ofChars?, chars, dotted?_dotted sp hv]
    simp [ofNat, Nat.mod_eq_of_lt hv]
  | v6 =>
    have hsize : Family.v6.size = 65536 ^ 8 := by norm_num [Family.size, Family.bits]
    simp only [ofChars?, chars, mapped?]
    by_cases hm : v / Family.v4.size = 0xFFFF
    · -- the mark and the octets make up the whole number again
      have h4 : Family.v4.size = 65536 ^ 2 := by norm_num [Family.size, Family.bits]
      have hlow : v % Family.v4.size < Family.v4.size := Nat.mod_lt _ Family.v4.size_pos
      have hwords := ofWords_words 65536 2 (v % Family.v4.size)
      rw [← h4, Nat.mod_mod] at hwords
      simp only [hm, ↓reduceIte, ofNat, dotted?_mark, eightGroups?_mark sp hlow, Option.map_some,
        Option.some.injEq]
      refine Address.ext rfl ?_
      have hv := Nat.div_add_mod v Family.v4.size
      rw [hm, h4] at hv
      simp only [words, List.nil_append, List.cons_append, ofWords, List.foldl_cons,
        List.foldl_nil, h4] at hwords ⊢
      rw [Nat.mod_eq_of_lt (by omega)]
      omega
    · have hdot : '.' ∉ compressed (words 65536 8 v) := fun h => by
        rcases mem_compressed h with h | h
        · exact absurd h (by decide)
        · exact absurd h (by decide)
      rw [if_neg hm]
      simp only [dotted?_eq_none sp hdot, eightGroups?_compressed sp (length_words 65536 8 v)
        (words_lt (by norm_num) 8 v), ofWords_words, Option.map_some, Option.some.injEq]
      refine Address.ext rfl ?_
      simp only [ofNat]
      rw [← hsize, Nat.mod_mod, Nat.mod_eq_of_lt hv]

theorem text_injective {a b : Address} (htext : a.text = b.text) : a = b := by
  have hchars : a.chars = b.chars := String.ofList_injective htext
  have ha := ofChars?_chars .strict a
  rw [hchars, ofChars?_chars .strict b] at ha
  exact (Option.some.inj ha).symm

theorem text_ne_of_unreadable (a : Address) {s : String} (hs : ofChars? .strict s.toList = none) :
    a.text ≠ s := by
  rintro rfl
  rw [text, String.toList_ofList, ofChars?_chars] at hs
  cases hs

theorem mem_chars {a : Address} {c : Char} (hc : c ∈ a.chars) :
    c ∈ figures ∨ c = '.' ∨ c = ':' := by
  rw [chars] at hc
  split at hc
  · rcases mem_dotted hc with hc | hc
    · exact Or.inl hc
    · exact Or.inr (Or.inl hc)
  · split at hc
    · rcases List.mem_append.mp hc with hc | hc
      · have hmark : "::ffff:".toList.all (figures ++ ['.', ':']).contains = true := by decide
        simpa using List.all_eq_true.mp hmark c hc
      · rcases mem_dotted hc with hc | hc
        · exact Or.inl hc
        · exact Or.inr (Or.inl hc)
    · rcases mem_compressed hc with hc | hc
      · exact Or.inl hc
      · exact Or.inr (Or.inr hc)

theorem read?_eq_map (s : String) : read? s = (parse? (trim s)).map canonical := by
  rw [read?, parse?, trim, String.toList_ofList]

theorem read?_text (a : Address) : read? a.text = some a.canonical := by
  have hblank : ∀ c ∈ a.chars, isBlank c = false := by
    intro c hc
    have hfigures : (figures ++ ['.', ':']).all (!isBlank ·) = true := by decide
    have hmem : c ∈ figures ++ ['.', ':'] := by simpa using mem_chars hc
    simpa using List.all_eq_true.mp hfigures c hmem
  rw [read?, text, String.toList_ofList, trimmed_of_forall hblank, ofChars?_chars, Option.map_some]

theorem read?_surrounded {gap back : List Char} (hgap : Gap gap) (hback : Gap back) (a : Address) :
    read? (String.ofList gap ++ a.text ++ String.ofList back) = some a.canonical := by
  rw [← read?_text a, read?, read?, String.toList_append, String.toList_append,
    String.toList_ofList, String.toList_ofList, trimmed_surrounded hgap hback]

/-! ### The length of a text -/

theorem length_dotted_le (n : Nat) : (dotted n).length ≤ 15 := by
  have hdigits : ∀ w, (digits 10 (w % 256)).length ≤ 3 := fun w =>
    Nat.toDigits_length 10 _ 3 (by norm_num) ((Nat.mod_lt w (by norm_num)).trans (by norm_num))
  have h₀ := hdigits n
  have h₁ := hdigits (n / 256)
  have h₂ := hdigits (n / 256 / 256)
  have h₃ := hdigits (n / 256 / 256 / 256)
  simp only [dotted, words, List.nil_append, List.cons_append, List.map_cons, List.map_nil,
    List.intercalate_cons_cons, List.intercalate_singleton, List.length_append,
    List.length_singleton]
  omega

theorem length_colons_le {gs : List Nat} (hgs : ∀ g ∈ gs, g < 65536) :
    (colons gs).length ≤ 5 * gs.length := by
  induction gs with
  | nil => simp [colons]
  | cons g gs ih =>
    obtain ⟨hg, hgs⟩ := List.forall_mem_cons.mp hgs
    have hdigits : (digits 16 g).length ≤ 4 := Nat.toDigits_length 16 g 4 (by norm_num) hg
    have hrest := ih hgs
    cases gs with
    | nil =>
      simp only [colons, List.map_cons, List.map_nil, List.intercalate_singleton,
        List.length_singleton]
      omega
    | cons h gs =>
      rw [colons_cons_cons, List.length_append, List.length_cons]
      simp only [List.length_cons] at hrest ⊢
      omega

theorem length_compressed_le {gs : List Nat} (hgs : ∀ g ∈ gs, g < 65536) :
    (compressed gs).length ≤ 5 * gs.length + 2 := by
  unfold compressed
  rcases longestZeros gs with ⟨start, count⟩
  dsimp only
  split_ifs
  · have hfront := length_colons_le fun g hg => hgs g (List.mem_of_mem_take (i := start) hg)
    have hback := length_colons_le fun g hg => hgs g (List.mem_of_mem_drop (i := start + count) hg)
    rw [List.length_take] at hfront
    rw [List.length_drop] at hback
    simp only [List.length_append, List.length_cons, List.length_nil]
    omega
  · have hall := length_colons_le hgs
    omega

theorem length_chars_le (a : Address) : a.chars.length ≤ 42 := by
  rw [chars]
  split
  · have hlength := length_dotted_le a.value
    omega
  · split
    · rename_i short _
      have hlength := length_dotted_le short.value
      have hmark : "::ffff:".toList.length = 7 := rfl
      rw [List.length_append]
      omega
    · have hlength := length_compressed_le (words_lt (by norm_num) 8 a.value)
      rw [length_words] at hlength
      exact hlength

theorem utf8ByteSize_text_le (a : Address) : a.text.utf8ByteSize ≤ 168 := by
  have hsize : ∀ cs : List Char, (String.ofList cs).utf8ByteSize ≤ 4 * cs.length := by
    intro cs
    induction cs with
    | nil => simp
    | cons c cs ih =>
      have hc := c.utf8Size_le_four
      rw [String.ofList_cons]
      simp only [String.utf8ByteSize_append, String.utf8ByteSize_singleton, List.length_cons]
      omega
  have hlength := a.length_chars_le
  have htext := hsize a.chars
  rw [text]
  omega

end AddressPool.Address
