import AddressPool.Proofs.Action
import AddressPool.Proofs.RangeSet
import AddressPool.Setup
import Mathlib.Tactic

/-!
# What a setup is known to be

A configuration becomes a setup only if it passes all checks, so that the sets of a setup are known
to be in canonical form (`Setup.canonicalized_of_load`).  What else a setup has from its configuration
is `Setup.OfConfig`.
-/

namespace AddressPool

namespace Setup

theorem canonicalized_of_canonicalSets {number : Nat} {given sets : List RangeSet}
    (h : canonicalSets number given = .ok sets) : ∀ s ∈ sets, s.Canonicalized := by
  induction given generalizing number sets with
  | nil =>
    cases h
    exact fun _ hs => absurd hs List.not_mem_nil
  | cons s given ih =>
    rw [canonicalSets] at h
    split at h
    · cases h
    · rename_i s' hs'
      obtain ⟨rest, hrest, hsets⟩ := bind_eq_ok_iff.mp h
      cases hsets
      exact List.forall_mem_cons.mpr ⟨⟨s, hs'⟩, ih hrest⟩

theorem length_canonicalSets {number : Nat} {given sets : List RangeSet}
    (h : canonicalSets number given = .ok sets) : sets.length = given.length := by
  induction given generalizing number sets with
  | nil =>
    cases h
    rfl
  | cons s given ih =>
    rw [canonicalSets] at h
    split at h
    · cases h
    · obtain ⟨rest, hrest, hsets⟩ := bind_eq_ok_iff.mp h
      cases hsets
      simp [ih hrest]

/-- What the setup of a configuration has from it. -/
structure OfConfig (config : Config) (part : Section) (s : Setup) : Prop where
  ipam : config.ipam? = some part
  nonempty : config.allSets part ≠ []
  sets : canonicalSets 0 (config.allSets part) = .ok s.sets
  name : s.name = config.name
  version : s.version = config.version
  routes : s.routes = part.routes
  dataDir : s.dataDir? = given part.dataDir?

theorem ofConfig_eq {config : Config} {arguments : String} {part : Section}
    {first? : Option Address} {others : List Address} {sets : List RangeSet}
    (hpart : config.ipam? = some part) (hfirst : Arguments.requested arguments = .ok first?)
    (hothers : addresses config.wished = .ok others) (hnonempty : config.allSets part ≠ [])
    (hsets : canonicalSets 0 (config.allSets part) = .ok sets)
    (hfew : tooMany config.version sets = false) (hdisjoint : firstOverlap? sets = none) :
    ofConfig config arguments = .ok {
      name := config.name
      version := config.version
      kind := part.kind
      routes := part.routes
      dataDir? := given part.dataDir?
      resolverFile? := given part.resolverFile?
      sets := sets
      requested := first?.toList ++ others } := by
  have hempty : ¬ (config.allSets part).isEmpty = true := by simpa using hnonempty
  have hfew' : ¬ tooMany config.version sets = true := by simp [hfew]
  rw [ofConfig, hpart]
  dsimp only
  rw [hfirst, hothers, ok_bind, ok_bind, if_neg hempty, hsets, ok_bind, if_neg hfew', hdisjoint]
  rfl

theorem ofConfig_ok {config : Config} {arguments : String} {s : Setup}
    (h : ofConfig config arguments = .ok s) :
    ∃ part first? others, config.ipam? = some part ∧
      Arguments.requested arguments = .ok first? ∧ addresses config.wished = .ok others ∧
      config.allSets part ≠ [] ∧ canonicalSets 0 (config.allSets part) = .ok s.sets ∧
      tooMany config.version s.sets = false ∧ firstOverlap? s.sets = none ∧
      s = {
        name := config.name
        version := config.version
        kind := part.kind
        routes := part.routes
        dataDir? := given part.dataDir?
        resolverFile? := given part.resolverFile?
        sets := s.sets
        requested := first?.toList ++ others } := by
  unfold ofConfig at h
  split at h
  · rename_i part hpart
    obtain ⟨first?, hfirst, h⟩ := bind_eq_ok_iff.mp h
    obtain ⟨others, hothers, h⟩ := bind_eq_ok_iff.mp h
    dsimp only at h
    split_ifs at h with hempty
    · cases h
    · obtain ⟨sets, hsets, h⟩ := bind_eq_ok_iff.mp h
      split_ifs at h with hmany
      · cases h
      · split at h
        · cases h
        · rename_i hoverlap
          have hdisjoint : firstOverlap? sets = none :=
            Option.eq_none_iff_forall_ne_some.mpr fun pair => hoverlap pair.1 pair.2
          cases h
          exact ⟨part, first?, others, hpart, hfirst, hothers, by simpa using hempty, hsets,
            by simpa using hmany, hdisjoint, rfl⟩
  · cases h

theorem exists_of_ofConfig {config : Config} {arguments : String} {s : Setup}
    (h : ofConfig config arguments = .ok s) : ∃ part, OfConfig config part s := by
  obtain ⟨part, first?, others, hpart, -, -, hnonempty, hsets, -, -, hs⟩ := ofConfig_ok h
  rw [hs]
  exact ⟨part, hpart, hnonempty, hsets, rfl, rfl, rfl, rfl⟩

theorem exists_of_load {bytes : Json.Bytes} {arguments : String} {s : Setup}
    (h : load bytes arguments = .ok s) :
    ∃ config part, Config.codec.decode bytes = .ok config ∧ OfConfig config part s := by
  rw [load] at h
  split at h
  · cases h
  · rename_i config hdecode
    obtain ⟨part, hpart⟩ := exists_of_ofConfig h
    exact ⟨config, part, hdecode, hpart⟩

namespace OfConfig

variable {config : Config} {part part' : Section} {s s' : Setup}

theorem length_sets (h : OfConfig config part s) :
    s.sets.length = (config.allSets part).length :=
  length_canonicalSets h.sets

theorem sets_ne_nil (h : OfConfig config part s) : s.sets ≠ [] := by
  intro hnil
  have hlength := h.length_sets
  rw [hnil] at hlength
  exact h.nonempty (List.length_eq_zero_iff.mp hlength.symm)

theorem same (h : OfConfig config part s) (h' : OfConfig config part' s') :
    s'.name = s.name ∧ s'.dataDir? = s.dataDir? ∧ s'.sets = s.sets := by
  obtain rfl : part' = part := Option.some.inj (h'.ipam.symm.trans h.ipam)
  exact ⟨h'.name.trans h.name.symm, h'.dataDir.trans h.dataDir.symm,
    Except.ok.inj (h'.sets.symm.trans h.sets)⟩

end OfConfig

/-- **The sets of a setup are in canonical form.** -/
theorem canonicalized_of_load {bytes : Json.Bytes} {arguments : String} {s : Setup}
    (h : load bytes arguments = .ok s) : ∀ set ∈ s.sets, set.Canonicalized := by
  obtain ⟨config, part, -, hpart⟩ := exists_of_load h
  exact canonicalized_of_canonicalSets hpart.sets

end Setup

end AddressPool
