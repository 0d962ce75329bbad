import ClientGen.Proofs.Calls.Paths
import ClientGen.Proofs.DataTypes.Paths
import ClientGen.Proofs.Extract.Owners
import ClientGen.Proofs.Passes

/-! # Paths of files

When the files of a pass have paths of their own. Data types are kept apart by a set of used names,
with one gap at the index. Calls are kept apart in each package, but packages only as far as their
snake cases are apart.
-/
namespace ClientGen.Generator
open Sdk

/-! ## Data types -/

/-- Files of models never share a path, and one takes the path of the index exactly when its model
is called after the keyword. -/
theorem nodup_model_paths_iff (g : Generator) :
    ((g.files .models).value.map (·.path)).dropLast.Nodup ∧
      (((g.files .models).value.map (·.path)).Nodup ↔
        ∀ m ∈ g.models.value, Ident.snake m.name ≠ "mod") := by
  rw [value_files_models]
  refine ⟨?_,DataTypes.nodup_paths⟩
  rw [DataTypes.map_path_files, List.dropLast_concat]
  exact DataTypes.nodup_fileNames g.models.value

/-- One schema, called after the keyword. -/
def lonelyMod : Generator where
  document :=
    { paths := .empty
      components := some ⟨.ofList [("Mod",.object [("type",.text "object")])],.empty,.empty⟩ }
  config := defaultConfig
  paths := .default

theorem lonelyMod_overwrites_index :
    ¬ ((lonelyMod.files .models).value.map (·.path)).Nodup := by
  decide +kernel

/-! ## Calls -/

/-- The module that an item declares. -/
def declaredModule? : Code.Item → Option String
  | .mod _ name => some name
  | _ => none

def submodules (m : Code.Module) : List String :=
  m.items.filterMap declaredModule?

/-- Each file of services has its own path, the root declares the module of each package once, and
each package has a directory of its own. -/
structure ServicesApart (g : Generator) : Prop where
  paths : ((g.files .services).value.map (·.path)).Nodup
  root : ∃ m, ⟨"mod.rs",m⟩ ∈ (g.files .services).value ∧
    ∀ p ∈ g.api.value.packages, (submodules m).count (packageModule p) = 1
  directories : ∀ p ∈ g.api.value.packages, ∀ q ∈ g.api.value.packages,
    Calls.directory p = Calls.directory q → p = q

theorem submodules_root (packages : List String) :
    submodules (Calls.root packages) = packages.map packageModule := by
  rw [submodules, Calls.root, List.filterMap_map]
  exact congrFun List.filterMap_eq_map packages

variable {g : Generator}

theorem servicesApart_of_snake_inj (h : ∀ p ∈ g.api.value.packages, ∀ q ∈ g.api.value.packages,
    Ident.snake p = Ident.snake q → p = q) : g.ServicesApart where
  paths := by
    rw [value_files_services]
    exact (Calls.placed_api _).nodup_paths.mpr h
  root := by
    refine ⟨Calls.root g.api.value.packages,?_,fun p hp => ?_⟩
    · rw [value_files_services]
      exact Calls.mem_files.mpr (.inr (.inr rfl))
    · have hnodup : (g.api.value.packages.map packageModule).Nodup := by
        refine List.Nodup.map_on ?_ (Dict.keys_nodup _)
        intro p hp q hq he
        exact h p hp q hq (Ident.bindingName_inj.mp he)
      rw [submodules_root]
      exact List.count_eq_one_of_mem hnodup (List.mem_map_of_mem hp)
  directories p hp q hq he := h p hp q hq (Calls.directory_inj.mp he)

/-- The services stay apart exactly when their packages differ in snake case, and as soon as no
path occurs twice. -/
theorem servicesApart_tfae (g : Generator) : List.TFAE [
    g.ServicesApart,
    ((g.files .services).value.map (·.path)).Nodup,
    ∀ p ∈ g.api.value.packages, ∀ q ∈ g.api.value.packages,
      Ident.snake p = Ident.snake q → p = q] := by
  tfae_have 1 → 2 := ServicesApart.paths
  tfae_have 2 → 3 := by
    intro hpaths
    rw [value_files_services] at hpaths
    exact (Calls.placed_api _).nodup_paths.mp hpaths
  tfae_have 3 → 1 := servicesApart_of_snake_inj
  tfae_finish

/-- They do under every table whose packages are in snake case, as all other packages are. -/
theorem servicesApart_of_table
    (h : ∀ p ∈ g.config.naming.servicePackages.values, Ident.snake p = p) : g.ServicesApart := by
  have hsnake : ∀ p ∈ g.api.value.packages, Ident.snake p = p := by
    intro p hp
    obtain ⟨op,hop,rfl⟩ := Api.mem_packages.mp hp
    exact (Extract.snake_package _ hop).elim (h op.package) id
  refine servicesApart_of_snake_inj fun p hp q hq he => ?_
  rw [← hsnake p hp, ← hsnake q hq, he]

/-- A package from the table beside one from a tag, with one snake case. -/
def twinPackages : Generator where
  document :=
    { paths := .ofList [("/a",tagged "listA" "Alpha"),("/b",tagged "listB" "beta")]
      components := none }
  config :=
    { defaultConfig with
      naming := { Naming.default with servicePackages := .ofList [("Alpha","Beta")] } }
  paths := .default

theorem twinPackages_overwrite :
    twinPackages.config.validate "sdkgen.toml" = .ok twinPackages.config ∧
      ¬ twinPackages.ServicesApart := by
  refine ⟨rfl,fun h => ?_⟩
  have hpaths : ¬ ((twinPackages.files .services).value.map (·.path)).Nodup := by decide +kernel
  exact hpaths h.paths

end ClientGen.Generator
