import AddressPool.Proofs.Range.Canonical
import Mathlib.Tactic

/-!
# Ranges in canonical form

`sound_of_canonicalize`: a range that was put into canonical form has all its bounds, and they lie
in order inside its subnet.  What lies between the bounds of a range is spanned by it; the range
contains what it spans, except for addresses that stand for others, and two ranges overlap exactly
if they span an address in common (`Sound.overlaps_iff`).
-/

namespace AddressPool

namespace Range

/-- An address lies between the bounds of a range. -/
def Spans (r : Range) (a : Address) : Prop :=
  r.start ≤ a ∧ a ≤ r.last

/-- Two ranges have an address between the bounds of both. -/
def Meets (r s : Range) : Prop :=
  ∃ a, r.Spans a ∧ s.Spans a

/-- What holds of a range in canonical form: nothing is left open, all of it is in a subnet with
room for hosts, and its bounds are in order, the last one below the broadcast address. -/
structure Sound (r : Range) : Prop where
  subnet_truncated : r.subnet.truncate = r.subnet
  room : r.subnet.length + 2 ≤ r.subnet.family.bits
  start_given : r.start? = some r.start
  last_given : r.last? = some r.last
  gateway_given : r.gateway? = some r.gateway
  start_mem : r.subnet.contains r.start
  last_mem : r.subnet.contains r.last
  gateway_mem : r.subnet.contains r.gateway
  start_canonical : r.start.canonical = r.start
  start_le_last : r.start ≤ r.last
  last_not_broadcast : r.subnet.broadcast? ≠ some r.last

/-- A range is put into canonical form as another one. -/
def HasForm (r r' : Range) : Prop :=
  r.canonicalize = (.ok (), r')

/-- **A range that was put into canonical form is sound.** -/
theorem sound_of_canonicalize {r r' : Range} (h : r.HasForm r') : r'.Sound := by
  obtain ⟨rfl, hfits⟩ := fits_of_canonicalize h
  exact {
    subnet_truncated := r.subnet.truncate_canonical
    room := length_of_hasRoom hfits.hasRoom
    start_given := rfl
    last_given := rfl
    gateway_given := rfl
    start_mem := hfits.start_mem
    last_mem := hfits.last_mem
    gateway_mem := hfits.gateway_mem
    start_canonical := (canonical_completed hfits.hasRoom).2
    start_le_last := hfits.ordered
    last_not_broadcast := hfits.not_broadcast }

/-! ### What a sound range spans -/

namespace Sound

variable {r s : Range} {a : Address}

theorem family_start (hr : r.Sound) : r.start.family = r.subnet.family :=
  (Network.contains_iff.mp hr.start_mem).1

theorem family_last (hr : r.Sound) : r.last.family = r.subnet.family :=
  (Network.contains_iff.mp hr.last_mem).1

theorem subnet_contains (hr : r.Sound) (ha : r.Spans a) : r.subnet.contains a :=
  Network.contains_of_between hr.start_mem hr.last_mem ha.1 ha.2

theorem family_eq (hr : r.Sound) (ha : r.Spans a) : a.family = r.subnet.family :=
  (Network.contains_iff.mp (hr.subnet_contains ha)).1

theorem last_lt_broadcast (hr : r.Sound) {b : Address} (hb : r.subnet.broadcast? = some b) :
    r.last < b := by
  have hne : r.last ≠ b := fun h => hr.last_not_broadcast (h ▸ hb)
  obtain ⟨hfamily, -, hbelow⟩ := Network.contains_iff.mp hr.last_mem
  unfold Network.broadcast? at hb
  split at hb
  · cases hb
    have hvalue : r.last.value ≠ r.subnet.highest.value := fun h => hne (Address.ext hfamily h)
    refine (Address.lt_iff_of_family_eq (b := r.subnet.highest) hfamily).mpr ?_
    simp only [Network.highest] at hvalue ⊢
    omega
  · cases hb

theorem lt_broadcast (hr : r.Sound) (ha : r.Spans a) {b : Address}
    (hb : r.subnet.broadcast? = some b) : a < b :=
  Nat.lt_of_le_of_lt ha.2 (hr.last_lt_broadcast hb)

theorem contains_of_spans (hr : r.Sound) (ha : r.Spans a) (hcanonical : a.canonical = a) :
    r.contains a = true := by
  rw [contains_eq_true_iff, hcanonical, hr.start_given, hr.last_given]
  refine ⟨hr.subnet_contains ha, ?_, ?_⟩
  · rintro _ ⟨⟩
    exact ha.1
  · rintro _ ⟨⟩
    exact ha.2

theorem spans_of_contains (hr : r.Sound) (ha : r.contains a = true) : r.Spans a.canonical := by
  rw [contains_eq_true_iff] at ha
  exact ⟨ha.2.1 _ hr.start_given, ha.2.2 _ hr.last_given⟩

theorem spans_of_contains_of_family (hr : r.Sound) (ha : r.contains a = true)
    (hfamily : a.family = r.subnet.family) : r.Spans a := by
  have hspans := hr.spans_of_contains ha
  have hplain : a.canonical = a :=
    Address.canonical_eq_self_of_family ((hr.family_eq hspans).trans hfamily.symm)
  rwa [hplain] at hspans

theorem spans_start (hr : r.Sound) : r.Spans r.start :=
  ⟨Nat.le_refl _, hr.start_le_last⟩

theorem spans_last (hr : r.Sound) : r.Spans r.last :=
  ⟨hr.start_le_last, Nat.le_refl _⟩

theorem family_eq_of_meets (hr : r.Sound) (hs : s.Sound) (h : r.Meets s) :
    r.start.family = s.start.family := by
  obtain ⟨a, har, has⟩ := h
  rw [hr.family_start, hs.family_start, ← hr.family_eq har, ← hs.family_eq has]

theorem overlaps_of_spans (hr : r.Sound) (hs : s.Sound) (har : r.Spans a) (has : s.Spans a) :
    r.overlaps s = true := by
  have hfamily := hr.family_eq_of_meets hs ⟨a, har, has⟩
  -- the range that does not begin before the other begins inside it
  rcases Nat.le_total r.start.rank s.start.rank with hle | hle
  · have hspans : r.Spans s.start := ⟨hle, Address.le_trans has.1 har.2⟩
    simp [overlaps, hfamily, hr.contains_of_spans hspans hs.start_canonical]
  · have hspans : s.Spans r.start := ⟨hle, Address.le_trans har.1 has.2⟩
    simp [overlaps, hfamily, hs.contains_of_spans hspans hr.start_canonical]

/-- **Two ranges overlap exactly if they meet.** -/
theorem overlaps_iff (hr : r.Sound) (hs : s.Sound) : r.overlaps s = true ↔ r.Meets s := by
  constructor
  · intro h
    rw [overlaps, Bool.and_eq_true, beq_iff_eq, hr.family_start, hs.family_start] at h
    obtain ⟨hfamily, hbound⟩ := h
    -- a bound that stands for an address of the other family is in neither range
    simp only [Bool.or_eq_true] at hbound
    rcases hbound with ((h | h) | h) | h
    · exact ⟨s.start, hr.spans_of_contains_of_family h (hs.family_start.trans hfamily.symm),
        hs.spans_start⟩
    · exact ⟨s.last, hr.spans_of_contains_of_family h (hs.family_last.trans hfamily.symm),
        hs.spans_last⟩
    · exact ⟨r.start, hr.spans_start,
        hs.spans_of_contains_of_family h (hr.family_start.trans hfamily)⟩
    · exact ⟨r.last, hr.spans_last,
        hs.spans_of_contains_of_family h (hr.family_last.trans hfamily)⟩
  · rintro ⟨a, har, has⟩
    exact hr.overlaps_of_spans hs har has

theorem not_spans_of_not_overlaps (hr : r.Sound) (hs : s.Sound) (hrs : r.overlaps s = false)
    (har : r.Spans a) : ¬ s.Spans a := fun has => by
  rw [hr.overlaps_of_spans hs har has] at hrs
  exact absurd hrs (by decide)

end Sound

/-! ### Ranges to try a set on -/

/-- Some addresses of a block, by their places in it. -/
def stretch (block first last : Nat) : Range :=
  let base := 10 * 2 ^ 24 + block * 2 ^ 8
  { subnet := ⟨.ofNat .v4 base, 24, (by decide : 24 ≤ 32)⟩
    start? := some (.ofNat .v4 (base + first))
    last? := some (.ofNat .v4 (base + last)) }

end Range

end AddressPool
