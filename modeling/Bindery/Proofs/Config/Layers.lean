import Bindery.Config
import Bindery.Proofs.SortedMap

/-!
# Layers of configurations

`merge_idempotentMonoid`: laying configurations over each other is associative, the default one
changes nothing above or below another, and one that is laid over itself stays the same. So layers
may be merged in any groups, as long as their order is kept.
-/

namespace Bindery.Config

attribute [ext] Config

/-! ## What a merged configuration holds -/

section

variable (a b : Config)

@[simp] theorem outputDirectory_merge :
    (a.merge b).outputDirectory = b.outputDirectory.or a.outputDirectory := by
  cases b with
  | mk outputDirectory => cases outputDirectory <;> rfl

@[simp] theorem targets_merge :
    (a.merge b).targets = if b.targets = [] then a.targets else b.targets := by
  simp only [merge, List.isEmpty_iff]

@[simp] theorem bridgeModule_merge :
    (a.merge b).bridgeModule = b.bridgeModule.or a.bridgeModule := by
  simp [merge]

@[simp] theorem postProcess_merge :
    (a.merge b).postProcess = (a.postProcess && b.postProcess) := rfl

@[simp] theorem commands_merge : (a.merge b).commands = a.commands.union b.commands := rfl

end

/-! ## Laws -/

theorem merge_assoc (a b c : Config) : (a.merge b).merge c = a.merge (b.merge c) := by
  apply Config.ext
  case outputDirectory => simp [Option.or_assoc]
  case targets => by_cases hc : c.targets = [] <;> simp [hc]
  case bridgeModule => simp [Option.or_assoc]
  case postProcess => simp [Bool.and_assoc]
  case commands => simp [SortedMap.union_assoc]

theorem merge_default (a : Config) : a.merge default = a := by
  apply Config.ext
  case outputDirectory => simp [default]
  case targets => simp [default]
  case bridgeModule => simp [default]
  case postProcess => simp [default]
  case commands => simp [default, SortedMap.union_empty]

theorem default_merge (a : Config) : default.merge a = a := by
  apply Config.ext
  case outputDirectory => simp [default]
  case targets => simp +contextual [default]
  case bridgeModule => simp [default]
  case postProcess => simp [default]
  case commands => simp [default, SortedMap.empty_union]

theorem merge_self (a : Config) : a.merge a = a := by
  apply Config.ext
  case outputDirectory => simp
  case targets => simp
  case bridgeModule => simp
  case postProcess => simp
  case commands => simp [SortedMap.union_self]

instance : Std.Associative merge := ⟨merge_assoc⟩

/-- A step has the command of the upper configuration, or else that of the lower one, which may be
built in. -/
theorem command_merge (a b : Config) (step : String) :
    (a.merge b).command step = (b.commands.get? step).or (a.command step) := by
  rw [command, commands_merge, SortedMap.get?_union, command]
  cases b.commands.get? step <;> rfl

/-! ## Any number of layers -/

/-- Configurations laid over each other, the first one at the bottom. -/
def overlay (layers : List Config) : Config :=
  layers.foldl merge default

theorem loadLayers_eq_overlay (fs : FileSystem) (user : Option String) (project : String) :
    loadLayers fs user project =
      overlay ((user.toList ++ [project]).map (loadOrDefault fs)) := by
  cases user with
  | none => rfl
  | some path => rfl

theorem overlay_cons (first : Config) (upper : List Config) :
    overlay (first :: upper) = first.merge (overlay upper) := by
  calc overlay (first :: upper)
      = upper.foldl merge (first.merge default) := by
        rw [overlay, List.foldl_cons, default_merge, merge_default]
    _ = first.merge (overlay upper) := List.foldl_assoc

theorem overlay_append (lower upper : List Config) :
    overlay (lower ++ upper) = (overlay lower).merge (overlay upper) := by
  induction lower with
  | nil => exact (default_merge (overlay upper)).symm
  | cons first lower ih => rw [List.cons_append, overlay_cons, overlay_cons, ih, merge_assoc]

theorem overlay_flatten (groups : List (List Config)) :
    overlay groups.flatten = overlay (groups.map overlay) := by
  induction groups with
  | nil => rfl
  | cons group groups ih =>
      rw [List.flatten_cons, overlay_append, ih, List.map_cons, overlay_cons]

/-- Merging is associative, neutral at the default configuration, and idempotent. The commands of
steps obey it as the configurations do, and any number of layers may be merged in any groups. What
is loaded is such layers: the configuration of the user, if there is one, below the one of the
project. -/
theorem merge_idempotentMonoid (a b c : Config) :
    (a.merge b).merge c = a.merge (b.merge c) ∧
    a.merge default = a ∧ default.merge a = a ∧ a.merge a = a ∧
    (∀ step, ((a.merge b).merge c).command step = (a.merge (b.merge c)).command step ∧
      (a.merge default).command step = a.command step ∧
      (default.merge a).command step = a.command step ∧
      (a.merge a).command step = a.command step ∧
      (a.merge b).command step = (b.commands.get? step).or (a.command step)) ∧
    (∀ groups : List (List Config), overlay groups.flatten = overlay (groups.map overlay)) ∧
    ∀ fs user project, loadLayers fs user project =
      overlay ((user.toList ++ [project]).map (loadOrDefault fs)) := by
  refine ⟨merge_assoc a b c, merge_default a, default_merge a, merge_self a, fun step => ?_,
    overlay_flatten, loadLayers_eq_overlay⟩
  rw [merge_assoc, merge_default, default_merge, merge_self]
  exact ⟨rfl, rfl, rfl, rfl, command_merge a b step⟩

end Bindery.Config
