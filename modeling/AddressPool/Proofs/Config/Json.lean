import AddressPool.Config.Json
import AddressPool.Proofs.Json.RoundTrip
import AddressPool.Proofs.Network.Text
import Mathlib.Tactic

/-!
# Reading grants and configurations back

Every codec of the library reads back what it writes.  For each structure that is a chain of its fields,
in their order: a member that must be there, one that is left out when it is what the reader starts with,
or one that is left out when there is nothing.
-/

namespace AddressPool

open AddressPool.Json AddressPool.Json.Codec

theorem Address.parse?_text (a : Address) : parse? a.text = some a := by
  rw [parse?, text, String.toList_ofList, ofChars?_chars]

theorem Address.readsBack : Address.codec.ReadsBack :=
  readsBack_spelled Address.parse?_text

theorem Network.readsBack : Network.codec.ReadsBack :=
  readsBack_spelled Network.parse?_text

theorem Range.readsBack : Range.codec.ReadsBack :=
  readsBack_record (by decide) fun _ =>
    .optional Address.readsBack rfl <| .optional Address.readsBack rfl <|
    .mandatory Network.readsBack <| .optional Address.readsBack rfl .nil

theorem RangeSet.readsBack : RangeSet.codec.ReadsBack :=
  Range.readsBack.list.wrap fun _ => rfl

theorem Lease.readsBack : Lease.codec.ReadsBack :=
  readsBack_record (by decide) fun _ =>
    .mandatory readsBack_string <| .mandatory Network.readsBack <| .mandatory Address.readsBack .nil

theorem Route.readsBack : Route.codec.ReadsBack :=
  readsBack_record (by decide) fun _ =>
    .mandatory Network.readsBack <| .optional Address.readsBack rfl .nil

theorem Resolver.readsBack : Resolver.codec.ReadsBack :=
  readsBack_record (by decide) fun _ =>
    .defaulted readsBack_string.list (fun h => by rw [List.isEmpty_iff.mp h]) <|
    .defaulted readsBack_string (fun h => by rw [String.isEmpty_iff.mp h]) <|
    .defaulted readsBack_string.list (fun h => by rw [List.isEmpty_iff.mp h]) <|
    .defaulted readsBack_string.list (fun h => by rw [List.isEmpty_iff.mp h]) .nil

theorem Resolver.eq_of_isEmpty {r : Resolver} (h : r.isEmpty = true) : r = {} := by
  simp only [isEmpty, Bool.and_eq_true, List.isEmpty_iff, String.isEmpty_iff] at h
  obtain ⟨⟨⟨hservers, hdomain⟩, hsearch⟩, hoptions⟩ := h
  exact congr (congr (congr (congrArg Resolver.mk hservers) hdomain) hsearch) hoptions

theorem Grant.readsBack : Grant.codec.ReadsBack :=
  readsBack_record (by decide) fun _ =>
    .mandatory readsBack_string <|
    .defaulted Lease.readsBack.list Bool.noConfusion <|
    .defaulted Route.readsBack.list (fun h => by rw [List.isEmpty_iff.mp h]) <|
    .defaulted Resolver.readsBack (fun h => by rw [Resolver.eq_of_isEmpty h]) .nil

theorem Section.readsBack : Section.codec.ReadsBack :=
  readsBack_record (by decide) fun _ =>
    .defaulted readsBack_string Bool.noConfusion <|
    .optional Network.readsBack rfl <| .optional Address.readsBack rfl <|
    .optional Address.readsBack rfl <| .optional Address.readsBack rfl <|
    .defaulted RangeSet.readsBack.list Bool.noConfusion <|
    .defaulted Route.readsBack.list Bool.noConfusion <|
    .optional readsBack_string rfl <| .optional readsBack_string rfl .nil

theorem Runtime.readsBack : Runtime.codec.ReadsBack :=
  readsBack_record (by decide) fun _ =>
    .defaulted RangeSet.readsBack.list (fun h => by rw [List.isEmpty_iff.mp h]) .nil

theorem Wishes.readsBack : Wishes.codec.ReadsBack :=
  readsBack_record (by decide) fun _ => .defaulted readsBack_string.list Bool.noConfusion .nil

theorem Extras.readsBack : Extras.codec.ReadsBack :=
  readsBack_record (by decide) fun _ => .optional Wishes.readsBack rfl .nil

theorem Config.readsBack : Config.codec.ReadsBack :=
  readsBack_record (by decide) fun _ =>
    .defaulted readsBack_string Bool.noConfusion <| .defaulted readsBack_string Bool.noConfusion <|
    .optional Section.readsBack rfl <| .defaulted Runtime.readsBack Bool.noConfusion <|
    .optional Extras.readsBack rfl .nil

end AddressPool
