import AddressPool.CommandLine
import AddressPool.Proofs.Command
import AddressPool.Proofs.Config.Json
import Mathlib.Tactic

/-!
# What the tool writes

Grants, sets of ranges and configurations are read back from their texts, and what a call for addresses
writes is read as the grant it came to, or as nothing if it came to none (`decode_written`).
-/

namespace AddressPool.CommandLine

open AddressPool.Files Attempt

variable {args : List String} {input config : Json.Bytes} {t : Tree} {call : Call}

/-! ### The output -/

theorem value_run_of_add (hparse : parse? args = some call) (hverb : call.verb = .add)
    (hconfig : configuration call input t = .ok config) :
    (run args input t).value =
      match (result (Command.add config call.owner call.arguments) t).1 with
      | .ok g => ⟨0, (Grant.codec.write g).pretty ++ "\n"⟩
      | .error _ => ⟨1, ""⟩ := by
  have hvalue : ((Command.add config call.owner call.arguments).verdict t).value =
      (result (Command.add config call.owner call.arguments) t).1 := rfl
  rw [run, hparse]
  dsimp only
  rw [perform, hconfig]
  dsimp only
  rw [hverb]
  dsimp only
  rw [Action.value_bind, hvalue]
  cases (result (Command.add config call.owner call.arguments) t).1 <;> rfl

theorem decode_pretty (g : Grant) :
    Grant.codec.decode (bytesOf ((Grant.codec.write g).pretty ++ "\n")) = .ok g := by
  have hblank : Json.Blank (bytesOf "\n") := by
    rw [Json.bytesOf_eq_bytes]
    exact Json.blank_bytes (by decide)
  rw [bytesOf_append]
  exact Grant.readsBack.decode_render .pretty g hblank

/-- **What is written is read back**: a grant, a set of ranges and a configuration from their texts,
and from the output of a call for addresses just the grant that the call came to. -/
theorem decode_written :
    (∀ g : Grant, Grant.codec.decode (bytesOf (Grant.codec.encode g)) = .ok g) ∧
    (∀ s : RangeSet, RangeSet.codec.decode (bytesOf (RangeSet.codec.encode s)) = .ok s) ∧
    (∀ c : Config, Config.codec.decode (bytesOf (Config.codec.encode c)) = .ok c) ∧
    ∀ (args : List String) (input config : Json.Bytes) (t : Tree) (call : Call) (g : Grant),
      parse? args = some call → call.verb = .add → configuration call input t = .ok config →
        (Grant.codec.decode (bytesOf (run args input t).value.output) = .ok g ↔
          (result (Command.add config call.owner call.arguments) t).1 = .ok g) := by
  refine ⟨Grant.readsBack.decode_encode, RangeSet.readsBack.decode_encode,
    Config.readsBack.decode_encode, ?_⟩
  intro args input config t call g hparse hverb hconfig
  rw [value_run_of_add hparse hverb hconfig]
  cases (result (Command.add config call.owner call.arguments) t).1 with
  | error e =>
    have hempty : Grant.codec.decode (bytesOf "") = .error .truncated := by decide +kernel
    dsimp only
    rw [hempty]
    exact iff_of_false (by simp) (by simp)
  | ok granted =>
    dsimp only
    rw [decode_pretty, Except.ok.injEq, Except.ok.injEq]

theorem decode_written_onePool : ∃ call g,
    parse? ["add", "-c", "-", "--container-id", "dummy"] = some call ∧ call.verb = .add ∧
    configuration call Command.onePool Tree.empty = .ok Command.onePool ∧
    (result (Command.add Command.onePool call.owner call.arguments) Tree.empty).1 = .ok g ∧
    Grant.codec.decode (bytesOf (run ["add", "-c", "-", "--container-id", "dummy"]
      Command.onePool Tree.empty).value.output) = .ok g := by
  have hparse : parse? ["add", "-c", "-", "--container-id", "dummy"] =
      some ⟨.add, "-", "dummy", ""⟩ := by
    decide +kernel
  have hconfig : configuration ⟨.add, "-", "dummy", ""⟩ Command.onePool Tree.empty =
      .ok Command.onePool := by
    decide +kernel
  have hok : (result (Command.add Command.onePool "dummy" "") Tree.empty).1.isOk = true := by
    decide +kernel
  cases hadd : (result (Command.add Command.onePool "dummy" "") Tree.empty).1 with
  | error e =>
    rw [hadd] at hok
    cases hok
  | ok g =>
    have hread := (decode_written.2.2.2 _ _ _ _ _ g hparse rfl hconfig).mpr hadd
    exact ⟨_, g, hparse, rfl, hconfig, hadd, hread⟩

end AddressPool.CommandLine
