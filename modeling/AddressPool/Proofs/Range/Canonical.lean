import AddressPool.Proofs.Network
import AddressPool.Range
import Mathlib.Tactic

/-!
# When a range has a canonical form

What a range leaves open is filled in with hosts of its subnet, and what it gives is put into
canonical form (`Range.completed`).  The range is accepted exactly if what it is completed to fits
into the subnet, and then this is its canonical form (`canonicalize_exact`).

The last address that is filled in may stand for another address, which no other that is given or
filled in does.  A range that ends so is refused when it is put into canonical form again; every
other range that was accepted is its own canonical form, and a range that was refused is refused
again, however far the first attempt has come (`canonicalize_again`).
-/

namespace AddressPool

namespace Range

/-- The range with nothing left open: its subnet and the addresses that it gives in canonical form,
and where it gives none, the address after the lowest one of the subnet for the gateway and the
first address, and for the last one that before the broadcast address or, in the longer family, the
highest. -/
def completed (r : Range) : Range :=
  let n := r.subnet.canonical
  let first := Address.ofNat n.family (n.base + 1)
  let last := Address.ofNat n.family (n.base + n.size - (if n.family = .v4 then 2 else 1))
  { start? := some (r.start?.elim first Address.canonical)
    last? := some (r.last?.elim last Address.canonical)
    subnet := n
    gateway? := some (r.gateway?.elim first Address.canonical) }

/-- The gateway and the bounds of a range fit into its subnet, which has at least two bits for its
members; the bounds are in order, and the last one is not the broadcast address. -/
structure Fits (r : Range) : Prop where
  room : r.subnet.length ≤ r.subnet.family.bits - 2
  gateway_mem : r.subnet.contains r.gateway = true
  start_mem : r.subnet.contains r.start = true
  last_mem : r.subnet.contains r.last = true
  ordered : r.start ≤ r.last
  not_broadcast : r.subnet.broadcast? ≠ some r.last

variable {r r' : Range} {a : Address}

theorem contains_eq_true_iff :
    r.contains a = true ↔
      r.subnet.contains a.canonical = true ∧ (∀ s, r.start? = some s → s ≤ a.canonical) ∧
        ∀ l, r.last? = some l → a.canonical ≤ l := by
  simp only [contains, Bool.and_eq_true, Option.all_eq_true, decide_eq_true_eq, and_assoc]

/-! ### The checks, one by one -/

/-- The bounds of a range are in order, as far as they are given. -/
def InOrder (r : Range) : Prop :=
  ∀ s l, r.start? = some s → r.last? = some l → s ≤ l

theorem contains_start_iff (hs : r.start? = some a) (hcanonical : a.canonical = a) :
    r.contains a = true ↔ r.subnet.contains a = true ∧ r.InOrder := by
  rw [contains_eq_true_iff, hcanonical, InOrder, hs]
  constructor
  · rintro ⟨hmem, -, hlast⟩
    refine ⟨hmem, ?_⟩
    rintro _ l ⟨⟩
    exact hlast l
  · rintro ⟨hmem, horder⟩
    refine ⟨hmem, ?_, fun l => horder a l rfl⟩
    rintro _ ⟨⟩
    exact Nat.le_refl _

theorem contains_last_iff (hl : r.last? = some a) (hcanonical : a.canonical = a) :
    r.contains a = true ↔ r.subnet.contains a = true ∧ r.InOrder := by
  rw [contains_eq_true_iff, hcanonical, InOrder, hl]
  constructor
  · rintro ⟨hmem, hstart, -⟩
    refine ⟨hmem, ?_⟩
    rintro s _ hs ⟨⟩
    exact hstart s hs
  · rintro ⟨hmem, horder⟩
    refine ⟨hmem, fun s hs => horder s a hs rfl, ?_⟩
    rintro _ ⟨⟩
    exact Nat.le_refl _

theorem ite_ok_iff {ε α : Type} {c : Prop} [Decidable c] {x y : α} {e : ε} :
    (if c then Except.ok x else .error e) = .ok y ↔ x = y ∧ c := by
  split_ifs with hc <;> simp [hc]

section Checks

variable (hroom : r.subnet.length + 2 ≤ r.subnet.family.bits)
include hroom

theorem checkedGateway_eq_ok_iff :
    r.checkedGateway = .ok a ↔ r.gateway = a ∧ r.subnet.contains r.gateway = true := by
  rw [checkedGateway, gateway]
  cases r.gateway? with
  | none => simp [Network.contains_firstHost hroom]
  | some g => exact ite_ok_iff

theorem checkedStart_eq_ok_iff (hgiven : ∀ s, r.start? = some s → s.canonical = s) :
    r.checkedStart = .ok a ↔
      r.start = a ∧ r.subnet.contains r.start = true ∧ r.InOrder := by
  rw [checkedStart, start]
  cases hs : r.start? with
  | none => simp [Network.contains_firstHost hroom, InOrder, hs]
  | some s =>
    refine ite_ok_iff.trans (and_congr_right fun _ => ?_)
    exact contains_start_iff hs (hgiven s hs)

theorem checkedLast_eq_ok_iff (hgiven : ∀ l, r.last? = some l → l.canonical = l) :
    r.checkedLast = .ok a ↔
      r.last = a ∧ (r.subnet.contains r.last = true ∧ r.InOrder) ∧
        r.subnet.broadcast? ≠ some r.last := by
  rw [checkedLast, last]
  cases hl : r.last? with
  | none =>
    simp [Network.contains_lastHost hroom, Network.broadcast?_ne_lastHost hroom, InOrder, hl]
  | some l =>
    have hmem := contains_last_iff hl (hgiven l hl)
    dsimp only [Option.getD_some]
    rw [← hmem]
    split_ifs with hout hbroadcast <;> simp_all

end Checks

theorem bounds_of_checked {e : Error} (h : r.checkedGateway = .error e ∨
    r.checkedStart = .error e ∨ r.checkedLast = .error e) : ∃ reason, e = .bounds reason := by
  simp only [checkedGateway, checkedStart, checkedLast] at h
  rcases h with h | h | h <;> split at h <;> (try split_ifs at h) <;> cases h <;> exact ⟨_, rfl⟩

/-! ### One check after the other -/

/-- The range as it is checked: everything that is given in canonical form. -/
def prepared (r : Range) : Range :=
  { r with subnet := r.subnet.canonical : Range }.normalized

def withGateway (r : Range) : Range :=
  { r with gateway? := some r.gateway }

def withStart (r : Range) : Range :=
  { r with start? := some r.start }

def withLast (r : Range) : Range :=
  { r with last? := some r.last }

/-- How far a range comes on the way to its canonical form, and with what verdict. -/
inductive Comes (r : Range) : Except Error Unit × Range → Prop
  | tooSmall : r.prepared.hasRoom = false →
      Comes r (.error (.tooSmall r.subnet.canonical), { r with subnet := r.subnet.canonical })
  | gatewayRefused {e : Error} : r.prepared.hasRoom = true →
      r.prepared.checkedGateway = .error e → Comes r (.error e, r.prepared)
  | startRefused {e : Error} : r.prepared.hasRoom = true →
      r.prepared.withGateway.checkedStart = .error e → Comes r (.error e, r.prepared.withGateway)
  | lastRefused {e : Error} : r.prepared.hasRoom = true →
      r.prepared.withGateway.withStart.checkedLast = .error e →
      Comes r (.error e, r.prepared.withGateway.withStart)
  | unordered : r.prepared.hasRoom = true → r.prepared.last < r.prepared.start →
      Comes r (.error (.startAfterEnd r.prepared.start r.prepared.last),
        r.prepared.withGateway.withStart.withLast)
  | accepted : r.prepared.hasRoom = true →
      r.prepared.checkedGateway = .ok r.prepared.gateway →
      r.prepared.withGateway.checkedStart = .ok r.prepared.start →
      r.prepared.withGateway.withStart.checkedLast = .ok r.prepared.last →
      ¬ r.prepared.last < r.prepared.start →
      Comes r (.ok (), r.prepared.withGateway.withStart.withLast)

theorem canonical_of_map {a? : Option Address} (h : a?.map Address.canonical = some a) :
    a.canonical = a := by
  obtain ⟨b, -, rfl⟩ := Option.map_eq_some_iff.mp h
  exact b.canonical_canonical

section Prepared

variable (hroom : r.prepared.hasRoom = true)
include hroom

theorem length_of_hasRoom :
    r.subnet.canonical.length + 2 ≤ r.subnet.canonical.family.bits :=
  of_decide_eq_true hroom

theorem gateway_eq_ok_iff :
    r.prepared.checkedGateway = .ok a ↔ r.prepared.gateway = a ∧
      r.subnet.canonical.contains r.prepared.gateway = true :=
  checkedGateway_eq_ok_iff (r := r.prepared) (length_of_hasRoom hroom)

theorem start_eq_ok_iff :
    r.prepared.withGateway.checkedStart = .ok a ↔ r.prepared.start = a ∧
      r.subnet.canonical.contains r.prepared.start = true ∧ r.prepared.withGateway.InOrder :=
  checkedStart_eq_ok_iff (r := r.prepared.withGateway) (length_of_hasRoom hroom)
    fun _ => canonical_of_map

theorem last_eq_ok_iff :
    r.prepared.withGateway.withStart.checkedLast = .ok a ↔ r.prepared.last = a ∧
      (r.subnet.canonical.contains r.prepared.last = true ∧
        r.prepared.withGateway.withStart.InOrder) ∧
      r.subnet.canonical.broadcast? ≠ some r.prepared.last :=
  checkedLast_eq_ok_iff (r := r.prepared.withGateway.withStart) (length_of_hasRoom hroom)
    fun _ => canonical_of_map

end Prepared

theorem comes (r : Range) : r.Comes r.canonicalize := by
  rw [canonicalize]
  dsimp only
  split_ifs with hsmall
  · exact .tooSmall ((Bool.not_eq_true' _).mp hsmall)
  have hroom : r.prepared.hasRoom = true := by
    rwa [Bool.not_eq_true', Bool.not_eq_false] at hsmall
  split
  · rename_i e hgateway
    exact .gatewayRefused hroom hgateway
  rename_i gateway hgateway
  obtain ⟨rfl, -⟩ := (gateway_eq_ok_iff hroom).mp hgateway
  split
  · rename_i e hstart
    exact .startRefused hroom hstart
  rename_i start hstart
  obtain ⟨rfl, -⟩ := (start_eq_ok_iff hroom).mp hstart
  split
  · rename_i e hlast
    exact .lastRefused hroom hlast
  rename_i last hlast
  obtain ⟨rfl, -⟩ := (last_eq_ok_iff hroom).mp hlast
  split_ifs with hordered
  · exact .unordered hroom hordered
  · exact .accepted hroom hgateway hstart hlast hordered

theorem completed_eq (hroom : r.prepared.hasRoom = true) :
    r.completed = r.prepared.withGateway.withStart.withLast := by
  have hgetD (a? : Option Address) (d : Address) :
      (a?.map Address.canonical).getD d = a?.elim d Address.canonical := by cases a? <;> rfl
  simp only [completed, withLast, withStart, withGateway, prepared, normalized, start, last,
    gateway, hgetD, Network.firstHost_eq_ofNat (length_of_hasRoom hroom),
    Network.lastHost_eq_ofNat]

/-! ### What is accepted, and what is not -/

theorem Fits.hasRoom (h : r.completed.Fits) : r.prepared.hasRoom = true := by
  have hbits : 2 ≤ r.subnet.canonical.family.bits := by
    cases r.subnet.canonical.family <;> decide
  exact decide_eq_true ((Nat.le_sub_iff_add_le hbits).mp h.room)

theorem InOrder.of_le (h : r.start ≤ r.last) : r.InOrder := by
  intro s l hs hl
  rwa [start, last, hs, hl] at h

theorem canonicalize_of_fits (h : r.completed.Fits) : r.canonicalize = (.ok (), r.completed) := by
  have hroom := h.hasRoom
  rw [completed_eq hroom] at h ⊢
  have hcomes := r.comes
  generalize r.canonicalize = outcome at hcomes ⊢
  cases hcomes with
  | tooSmall hsmall => exact absurd (hroom.symm.trans hsmall) Bool.noConfusion
  | gatewayRefused _ hrefused =>
    rw [(gateway_eq_ok_iff hroom).mpr ⟨rfl, h.gateway_mem⟩] at hrefused
    cases hrefused
  | startRefused _ hrefused =>
    rw [(start_eq_ok_iff hroom).mpr ⟨rfl, h.start_mem, .of_le h.ordered⟩] at hrefused
    cases hrefused
  | lastRefused _ hrefused =>
    rw [(last_eq_ok_iff hroom).mpr
      ⟨rfl, ⟨h.last_mem, .of_le h.ordered⟩, h.not_broadcast⟩] at hrefused
    cases hrefused
  | unordered _ hunordered => exact absurd h.ordered (Nat.not_le.mpr hunordered)
  | accepted => rfl

theorem fits_of_canonicalize (h : r.canonicalize = (.ok (), r')) :
    r' = r.completed ∧ r.completed.Fits := by
  have hcomes := r.comes
  rw [h] at hcomes
  cases hcomes with
  | accepted hroom hgateway hstart hlast hordered =>
    obtain ⟨-, hgateway⟩ := (gateway_eq_ok_iff hroom).mp hgateway
    obtain ⟨-, hstart, -⟩ := (start_eq_ok_iff hroom).mp hstart
    obtain ⟨-, ⟨hlast, -⟩, hbroadcast⟩ := (last_eq_ok_iff hroom).mp hlast
    rw [completed_eq hroom]
    exact ⟨rfl, Nat.le_sub_of_add_le (length_of_hasRoom hroom), hgateway, hstart, hlast,
      Address.not_lt.mp hordered, hbroadcast⟩

theorem bounds_of_canonicalize {e : Error} (h : r.canonicalize = (.error e, r')) :
    ∃ reason, e = .bounds reason := by
  have hcomes := r.comes
  rw [h] at hcomes
  cases hcomes with
  | tooSmall => exact ⟨_, rfl⟩
  | gatewayRefused _ hrefused => exact bounds_of_checked (Or.inl hrefused)
  | startRefused _ hrefused => exact bounds_of_checked (Or.inr (Or.inl hrefused))
  | lastRefused _ hrefused => exact bounds_of_checked (Or.inr (Or.inr hrefused))
  | unordered => exact ⟨_, rfl⟩

/-- **A range is accepted exactly if its completion fits into its subnet, which has no bits left
after the shared ones, and then it has become its completion; if it is refused, that is over the
bounds.** -/
theorem canonicalize_exact (r : Range) :
    match r.canonicalize with
    | (.ok _, r') => r.completed.Fits ∧ r' = r.completed ∧ r'.subnet.truncate = r'.subnet
    | (.error e, _) => ¬ r.completed.Fits ∧ ∃ reason, e = .bounds reason := by
  rcases h : r.canonicalize with ⟨e | _, r'⟩
  · refine ⟨fun hfits => ?_, bounds_of_canonicalize h⟩
    rw [canonicalize_of_fits hfits] at h
    cases h
  · obtain ⟨rfl, hfits⟩ := fits_of_canonicalize h
    exact ⟨hfits, rfl, Network.truncate_canonical r.subnet⟩

/-! ### Once more -/

theorem canonical_elim {a? : Option Address} {d : Address} (hd : d.canonical = d) :
    (a?.elim d Address.canonical).canonical = a?.elim d Address.canonical := by
  cases a? with
  | none => exact hd
  | some a => exact a.canonical_canonical

theorem canonical_completed (hroom : r.prepared.hasRoom = true) :
    r.completed.gateway.canonical = r.completed.gateway ∧
      r.completed.start.canonical = r.completed.start := by
  have hfirst := Network.canonical_firstHost (length_of_hasRoom hroom)
  rw [Network.firstHost_eq_ofNat (length_of_hasRoom hroom)] at hfirst
  exact ⟨canonical_elim hfirst, canonical_elim hfirst⟩

theorem completed_completed (hroom : r.prepared.hasRoom = true)
    (hplain : r.completed.last.mapped? = none) : r.completed.completed = r.completed := by
  obtain ⟨hgateway, hstart⟩ := canonical_completed hroom
  have hlast := Address.canonical_eq_self_iff.mpr hplain
  have hsubnet := r.subnet.canonical_canonical
  change Range.mk (some r.completed.start.canonical) (some r.completed.last.canonical)
    r.subnet.canonical.canonical (some r.completed.gateway.canonical) = _
  rw [hgateway, hstart, hlast, hsubnet]
  rfl

theorem plain_of_fits (h : r.completed.completed.Fits) : r.completed.last.mapped? = none := by
  have hinside : r.subnet.canonical.canonical.contains r.completed.last.canonical = true :=
    h.last_mem
  rw [Network.canonical_canonical, Network.contains_iff] at hinside
  cases hl : r.last? with
  | none =>
    have hdefault : r.completed.last.family = r.subnet.canonical.family := by
      rw [completed, hl]
      rfl
    exact Address.canonical_eq_self_iff.mp
      (Address.canonical_eq_self_of_family (hinside.1.trans hdefault.symm))
  | some l =>
    have hgiven : r.completed.last = l.canonical := by
      rw [completed, hl]
      rfl
    exact hgiven ▸ l.mapped?_canonical

theorem completed_completed_of_fits (h : r.completed.completed.Fits) :
    r.completed.completed = r.completed := by
  have hroom : r.completed.prepared.hasRoom = true := h.hasRoom
  have hsubnet : r.completed.prepared.subnet = r.prepared.subnet :=
    r.subnet.canonical_canonical
  rw [hasRoom, hsubnet] at hroom
  exact completed_completed hroom (plain_of_fits h)

theorem completed_withGateway (h : r.gateway.canonical = r.completed.gateway) :
    r.withGateway.completed = r.completed := by
  change { r.completed with gateway? := some r.gateway.canonical } = r.completed
  rw [h]
  rfl

theorem completed_withStart (h : r.start.canonical = r.completed.start) :
    r.withStart.completed = r.completed := by
  change { r.completed with start? := some r.start.canonical } = r.completed
  rw [h]
  rfl

theorem completed_prepared (r : Range) : r.prepared.completed = r.completed := by
  have hmap (a? : Option Address) (d : Address) :
      (a?.map Address.canonical).elim d Address.canonical = a?.elim d Address.canonical := by
    cases a? <;> simp
  simp only [completed, prepared, normalized, Network.canonical_canonical, hmap]

theorem completed_of_refused {e : Error} (h : r.canonicalize = (.error e, r')) :
    r'.completed = r.completed ∨ r' = r.completed := by
  have hgateway (hroom : r.prepared.hasRoom = true) :
      r.prepared.withGateway.completed = r.completed := by
    rw [completed_withGateway, completed_prepared]
    rw [completed_prepared, ← (canonical_completed hroom).1, completed_eq hroom]
    rfl
  have hcomes := r.comes
  rw [h] at hcomes
  cases hcomes with
  | tooSmall => exact Or.inl (by simp only [completed, Network.canonical_canonical])
  | gatewayRefused => exact Or.inl r.completed_prepared
  | startRefused hroom => exact Or.inl (hgateway hroom)
  | lastRefused hroom =>
    rw [completed_withStart, hgateway hroom]
    · exact Or.inl rfl
    · rw [hgateway hroom, ← (canonical_completed hroom).2, completed_eq hroom]
      rfl
  | unordered hroom => exact Or.inr (completed_eq hroom).symm

/-- **A range that was accepted stays as it is when it is put into canonical form again, if and only
if its last address stands for no other; a range that was refused is refused again.** -/
theorem canonicalize_again (r : Range) :
    match r.canonicalize with
    | (.ok _, r') => r'.canonicalize = (.ok (), r') ↔ r'.last.mapped? = none
    | (.error _, r') => ∃ e r'', r'.canonicalize = (.error e, r'') := by
  rcases h : r.canonicalize with ⟨e | _, r'⟩
  · rcases hagain : r'.canonicalize with ⟨e' | _, r''⟩
    · exact ⟨e', r'', hagain⟩
    obtain ⟨-, hfits'⟩ := fits_of_canonicalize hagain
    -- otherwise the range would have been accepted before
    have hfits : r.completed.Fits := by
      rcases completed_of_refused h with hsame | rfl
      · exact hsame ▸ hfits'
      · exact completed_completed_of_fits hfits' ▸ hfits'
    rw [canonicalize_of_fits hfits] at h
    cases h
  · obtain ⟨rfl, hfits⟩ := fits_of_canonicalize h
    constructor
    · intro hagain
      exact plain_of_fits (fits_of_canonicalize hagain).2
    · intro hplain
      have hstays := completed_completed hfits.hasRoom hplain
      have hagain := canonicalize_of_fits (hstays.symm ▸ hfits)
      rwa [hstays] at hagain

/-- A range that ends with the block of addresses that stand for others. -/
def upToBlock : Range :=
  { subnet := ⟨.ofNat .v6 0, 80, (by decide : 80 ≤ 128)⟩ }

theorem not_canonicalize_again :
    ¬ ∀ r : Range, match r.canonicalize with
      | (.ok _, r') => r'.canonicalize = (.ok (), r')
      | (.error _, r') => ∃ e r'', r'.canonicalize = (.error e, r'') := by
  intro hagain
  have hokay : upToBlock.canonicalize = (.ok (), upToBlock.completed) := rfl
  have hrefused : upToBlock.completed.canonicalize.1.isOk = false := by decide +kernel
  have hstays := hagain upToBlock
  rw [hokay] at hstays
  dsimp only at hstays
  rw [hstays] at hrefused
  cases hrefused

end Range

end AddressPool
