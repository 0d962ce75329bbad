import ClientGen.Proofs.Calls.Paths
import ClientGen.Proofs.Ident.Legal
import ClientGen.Proofs.Passes

/-! # Function names of packages

Each function of a package has a name that no other function of the package has, not even without
the mark of the raw form, and that leaves the names of the package's options and index alone. So
each file of the package has a path of its own.
-/
namespace ClientGen

theorem Operation.Extracted.declarable_function {op : Operation} (h : op.Extracted) :
    Ident.Declarable op.function := by
  obtain ⟨used,_,he⟩ := h.exists_function_eq
  rw [he]
  exact (Ident.declarable_bindingName op.id).reserve used

namespace Generator
open Sdk

/-- The files that the services pass keeps for a package. -/
def packageFiles (g : Generator) (package : String) : List Code.File :=
  (Calls.packageFiles (.ofModels g.models.value (some g.paths.models)) g.paths package
    (g.api.value.operationsOf package)).value

/-- Names of functions that can be declared, told apart, and used as names of files. -/
structure FunctionsApart (g : Generator) (package : String) : Prop where
  nodup : ((g.api.value.operationsOf package).map fun op => Ident.unraw op.function).Nodup
  legal : ∀ op ∈ g.api.value.operationsOf package,
    Code.isName op.function = true ∧ Ident.isKeyword op.function = false
  unreserved : ∀ op ∈ g.api.value.operationsOf package,
    Ident.unraw op.function ≠ "options" ∧ Ident.unraw op.function ≠ "mod"
  files : ((g.packageFiles package).map (·.path)).Nodup

theorem functionsApart (g : Generator) (package : String) : g.FunctionsApart package := by
  have hplaced : Calls.Placed g.api.value := Calls.placed_api _
  have hbare := hplaced.nodup_bareNames package
  have hreserved : Extract.reservedFunctions.map Ident.unraw = ["options","mod"] := by decide
  rw [List.map_append, List.map_map, hreserved] at hbare
  obtain ⟨hnodup,_,hdisjoint⟩ := List.nodup_append'.mp hbare
  have hextracted {op : Operation} (hop : op ∈ g.api.value.operationsOf package) : op.Extracted :=
    hplaced.extracted op (Api.mem_operationsOf.mp hop).1
  refine ⟨hnodup,fun op hop => ?_,fun op hop => ?_,?_⟩
  · have hlegal := (hextracted hop).declarable_function.legal
    exact ⟨hlegal.isName,hlegal.notKeyword⟩
  · have hname := hdisjoint (List.mem_map_of_mem hop)
    simpa using hname
  · rw [packageFiles, Calls.map_path_packageFiles]
    exact hplaced.nodup_packagePaths package

/-- Ids that fall on one name, on keywords and on names that packages use themselves. -/
def clashingIds : Generator where
  document :=
    { paths := .ofList [("/a",tagged "get zone" "dns"),("/b",tagged "getZone" "dns"),
        ("/c",tagged "get_zone_2" "dns"),("/d",tagged "type" "dns"),("/e",tagged "self" "dns"),
        ("/f",tagged "mod" "dns"),("/g",tagged "options" "dns"),("/h",tagged "2fa" "dns")]
      components := none }
  config := defaultConfig
  paths := .default

example : (clashingIds.api.value.operationsOf "dns").map (·.function) =
    ["get_zone","get_zone_2","get_zone_2_2","r#type","self_","mod_2","options_2","n_2fa"] := by
  decide +kernel

end Generator
end ClientGen
