import AddressPool.Proofs.Allocation.All
import Mathlib.Tactic

/-!
# Shorter addresses in their longer form

An address of the shorter family can be written in the longer one, as the address that stands for
it, and so can a network of such addresses.  Whether the subnets, bounds, gateways and requests of a
call are written in the one way or the other makes no difference to what their sets come to, and none
to the call (`allocateAll_rewritten`).
-/

namespace AddressPool

/-! ### Addresses and networks -/

namespace Address

variable {a b : Address}

/-- An address is written as it is, or in its longer form if it is of the shorter family. -/
inductive Rewritten (a : Address) : Address → Prop
  | same : Rewritten a a
  | longer : a.family = .v4 → Rewritten a a.toMapped

theorem mapped?_toMapped (hfamily : a.family = .v4) : a.toMapped.mapped? = some a := by
  have hlt : a.value < 4294967296 := by
    have := a.value_lt
    rwa [hfamily, size_v4] at this
  have hbase : mappedBase = 65535 * 4294967296 := by rw [mappedBase, size_v4]
  have hvalue : a.toMapped.value = mappedBase + a.value := by
    refine value_ofNat ?_
    norm_num [Family.size, Family.bits]
    omega
  have hlead : a.toMapped.value / Family.v4.size = 0xFFFF := by
    rw [hvalue, size_v4]
    omega
  have hshort : ofNat .v4 a.toMapped.value = a := by
    refine Address.ext hfamily.symm ?_
    change a.toMapped.value % Family.v4.size = a.value
    rw [hvalue, size_v4]
    omega
  rw [mapped?, show a.toMapped.family = .v6 from rfl]
  dsimp only
  rw [if_pos hlead, hshort]

theorem Rewritten.canonical_eq (h : a.Rewritten b) : b.canonical = a.canonical := by
  cases h with
  | same => rfl
  | longer hfamily =>
    rw [canonical, mapped?_toMapped hfamily, Option.getD_some, canonical_v4 hfamily]

end Address

namespace Network

variable {n m : Network}

/-- A network of the shorter family in its longer form, with the bits after the shared ones as they
are. -/
def toMapped (n : Network) (hfamily : n.family = .v4) : Network where
  address := n.address.toMapped
  length := 96 + n.length
  length_le := by
    have hle := n.length_le
    rw [show n.address.family = .v4 from hfamily] at hle
    exact Nat.add_le_add_left hle 96

/-- A network is written as it is, or in its longer form if it is of the shorter family. -/
inductive Rewritten (n : Network) : Network → Prop
  | same : Rewritten n n
  | longer (hfamily : n.family = .v4) : Rewritten n (n.toMapped hfamily)

theorem mapped?_toMapped (hfamily : n.family = .v4) : (n.toMapped hfamily).mapped? = some n := by
  have hlength : 96 + n.length - 96 = n.length := Nat.add_sub_cancel_left ..
  rw [mapped?, toMapped, Address.mapped?_toMapped hfamily]
  dsimp only
  rw [if_pos (Nat.le_add_right ..), hlength, of?, dif_pos n.length_le]

theorem Rewritten.canonical_eq (h : n.Rewritten m) : m.canonical = n.canonical := by
  cases h with
  | same => rfl
  | longer hfamily =>
    have hshort : n.mapped? = none := by
      rw [mapped?_eq_none_iff, Address.mapped?, show n.address.family = .v4 from hfamily]
      exact Or.inl rfl
    rw [canonical, mapped?_toMapped, canonical, hshort]
    rfl

end Network

/-! ### Ranges -/

theorem map_eq_of_forall₂ {α β : Type} {R : α → α → Prop} {f : α → β} {xs ys : List α}
    (hf : ∀ x y, R x y → f y = f x) (h : List.Forall₂ R xs ys) : ys.map f = xs.map f := by
  induction h with
  | nil => rfl
  | cons hxy _ ih => rw [List.map_cons, List.map_cons, hf _ _ hxy, ih]

namespace Range

variable {r r' : Range}

/-- The subnet of a range, its bounds and its gateway are written anew. -/
structure Rewritten (r r' : Range) : Prop where
  subnet : r.subnet.Rewritten r'.subnet
  start : Option.Rel Address.Rewritten r.start? r'.start?
  last : Option.Rel Address.Rewritten r.last? r'.last?
  gateway : Option.Rel Address.Rewritten r.gateway? r'.gateway?

theorem map_canonical_of_rel {a? b? : Option Address} (h : Option.Rel Address.Rewritten a? b?) :
    b?.map Address.canonical = a?.map Address.canonical := by
  cases h with
  | none => rfl
  | some hab => rw [Option.map_some, Option.map_some, hab.canonical_eq]

/-- **Nothing of it is left in the range that is checked.** -/
theorem Rewritten.prepared_eq (h : r.Rewritten r') : r'.prepared = r.prepared := by
  rw [prepared, prepared, normalized, normalized]
  simp only [h.subnet.canonical_eq, map_canonical_of_rel h.start, map_canonical_of_rel h.last,
    map_canonical_of_rel h.gateway]

/-- The canonical form of a range, or why it is refused. -/
def form (r : Range) : Except Error Range :=
  match r.canonicalize with
  | (.ok _, r) => .ok r
  | (.error e, _) => .error e

theorem form_eq_ok_iff : r.form = .ok r' ↔ r.HasForm r' := by
  rw [form, HasForm]
  rcases r.canonicalize with ⟨_ | _, _⟩ <;> simp

theorem form_eq_error_iff {e : Error} : r.form = .error e ↔ r.canonicalize.1 = .error e := by
  rw [form]
  rcases r.canonicalize with ⟨_ | _, _⟩ <;> simp

theorem form_of_prepared (h : r'.prepared = r.prepared) : r'.form = r.form := by
  have hsubnet : r'.subnet.canonical = r.subnet.canonical := congrArg Range.subnet h
  have hroom (r : Range) :
      hasRoom { r with subnet := r.subnet.canonical } = r.prepared.hasRoom := rfl
  have hnormal (r : Range) : normalized { r with subnet := r.subnet.canonical } = r.prepared := rfl
  -- all checks and all messages are about the prepared range
  rw [form, canonicalize, form, canonicalize]
  simp only [hroom, hnormal, h]
  split_ifs
  · rw [hsubnet]
  · rfl

theorem Rewritten.form_eq (h : r.Rewritten r') : r'.form = r.form :=
  form_of_prepared h.prepared_eq

end Range

/-! ### Sets of ranges -/

namespace RangeSet

variable {s s' : RangeSet}

/-- The members are written anew. -/
def Rewritten (s s' : RangeSet) : Prop :=
  List.Forall₂ Range.Rewritten s.members s'.members

theorem forall₂_hasForm_iff {rs rs' : List Range} :
    List.Forall₂ Range.HasForm rs rs' ↔ rs.map Range.form = rs'.map .ok := by
  rw [← List.forall₂_eq_eq_eq, List.forall₂_map_left_iff, List.forall₂_map_right_iff]
  simp only [Range.form_eq_ok_iff]

theorem canonical_of_map_form (h : s'.members.map Range.form = s.members.map Range.form) :
    s'.canonical = s.canonical := by
  by_cases hne : s.members = []
  · have hne' : s'.members = [] := by simpa [hne] using h
    rw [canonical_of_empty hne, canonical_of_empty hne']
  rcases forms_or_refused s.members with ⟨rs, hforms⟩ | ⟨before, r, after, e, hsplit, hbefore, hr⟩
  · have hne' : s'.members ≠ [] := fun hnil => hne (by simpa [hnil] using h.symm)
    have hforms' : List.Forall₂ Range.HasForm s'.members rs :=
      forall₂_hasForm_iff.mpr (h.trans (forall₂_hasForm_iff.mp hforms))
    rw [canonical_of_forms hne hforms, canonical_of_forms hne' hforms']
  · -- the first member that is refused is at the same place in the other set
    rw [hsplit, List.map_append, List.map_cons] at h
    obtain ⟨before', rest', hsplit', hforms, hrest⟩ := List.map_eq_append_iff.mp h
    obtain ⟨r', after', rfl, hform, -⟩ := List.map_eq_cons_iff.mp hrest
    have hr' : r'.canonicalize.1 = .error e := by
      rw [← Range.form_eq_error_iff, hform, Range.form_eq_error_iff, hr]
    have hbefore' : ∀ t ∈ before', ∃ t', t.HasForm t' := by
      intro t ht
      obtain ⟨u, hu, hut⟩ := List.mem_map.mp (hforms ▸ List.mem_map_of_mem ht)
      obtain ⟨u', hu'⟩ := hbefore u hu
      exact ⟨u', Range.form_eq_ok_iff.mp (hut ▸ Range.form_eq_ok_iff.mpr hu')⟩
    rw [canonical_of_refused hsplit hbefore hr, canonical_of_refused hsplit' hbefore' hr']

theorem Rewritten.canonical_eq (h : s.Rewritten s') : s'.canonical = s.canonical :=
  canonical_of_map_form (map_eq_of_forall₂ (fun _ _ => Range.Rewritten.form_eq) h)

end RangeSet

/-! ### Calls -/

theorem requests_rewritten {asked asked' : List Address}
    (h : List.Forall₂ Address.Rewritten asked asked') :
    Allocation.requests asked' = Allocation.requests asked := by
  have hforms : asked'.map Address.canonical = asked.map Address.canonical :=
    map_eq_of_forall₂ (fun _ _ => Address.Rewritten.canonical_eq) h
  rw [Allocation.requests_eq, Allocation.requests_eq, hforms]

/-- **Sets whose subnets, bounds and gateways are written anew come to the same, or are refused for
the same reason, and a call over what they come to, with its requests written anew, is the same
call.** -/
theorem allocateAll_rewritten {sets sets' : List RangeSet} {asked asked' : List Address}
    (hsets : List.Forall₂ RangeSet.Rewritten sets sets')
    (hasked : List.Forall₂ Address.Rewritten asked asked') :
    sets'.map RangeSet.canonical = sets.map RangeSet.canonical ∧
    ∀ given given' : List RangeSet,
      sets.map RangeSet.canonical = given.map .ok →
      sets'.map RangeSet.canonical = given'.map .ok →
      given' = given ∧
      ∀ {σ : Type} (store : Store σ) (owner : String),
        allocateAll store given' owner asked' = allocateAll store given owner asked := by
  have hcanonical : sets'.map RangeSet.canonical = sets.map RangeSet.canonical :=
    map_eq_of_forall₂ (fun _ _ => RangeSet.Rewritten.canonical_eq) hsets
  refine ⟨hcanonical, fun given given' hgiven hgiven' => ?_⟩
  have hsame : given' = given := by
    rw [hcanonical, hgiven] at hgiven'
    exact (List.map_injective_iff.mpr (fun _ _ => Except.ok.inj) hgiven').symm
  refine ⟨hsame, fun store owner => ?_⟩
  rw [hsame, allocateAll, allocateAll, requests_rewritten hasked]

/-- A set over a block that is given by one of its hosts. -/
def hostedSet : RangeSet :=
  let r := Range.stretch 0 20 30
  ⟨[{ r with subnet := { r.subnet with address := .ofNat .v4 0x0A000007 } }]⟩

/-- The same set with its subnet and its first address in the longer form. -/
def hostedSetMixed : RangeSet :=
  ⟨[{ Range.stretch 0 20 30 with
      subnet := ⟨.ofNat .v6 0xFFFF0A000007, 120, (by decide : 120 ≤ 128)⟩
      start? := some (.ofNat .v6 0xFFFF0A000014) }]⟩

/-- What both come to. -/
def hostedSetForm : RangeSet :=
  ⟨[{ Range.stretch 0 20 30 with gateway? := some (.ofNat .v4 0x0A000001) }]⟩

theorem allocateAll_rewritten_hostedSet :
    [hostedSetMixed, tightSet 1].map RangeSet.canonical =
      [hostedSetForm, tightSet 1].map .ok ∧
    allocateAll Memory.store [hostedSetForm, tightSet 1] "dummy" [.ofNat .v6 0xFFFF0A000015] =
      allocateAll Memory.store [hostedSetForm, tightSet 1] "dummy" [.ofNat .v4 0x0A000015] := by
  have hsets : List.Forall₂ RangeSet.Rewritten [hostedSet, tightSet 1]
      [hostedSetMixed, tightSet 1] :=
    .cons (.cons ⟨.longer rfl, .some (.longer rfl), .some .same, .none⟩ .nil)
      (.cons (.cons ⟨.same, .some .same, .some .same, .some .same⟩ .nil) .nil)
  have hasked : List.Forall₂ Address.Rewritten [.ofNat .v4 0x0A000015]
      [.ofNat .v6 0xFFFF0A000015] :=
    .cons (.longer rfl) .nil
  have hform : [hostedSet, tightSet 1].map RangeSet.canonical =
      [hostedSetForm, tightSet 1].map .ok := rfl
  obtain ⟨hsame, hcalls⟩ := allocateAll_rewritten hsets hasked
  have hform' := hsame.trans hform
  exact ⟨hform', (hcalls _ _ hform hform').2 Memory.store "dummy"⟩

end AddressPool
