import ClientGen.Proofs.Calls.Scopes
import ClientGen.Proofs.Classify.Members
import ClientGen.Proofs.DataTypes.Scopes
import ClientGen.Proofs.Navigation.Scopes
import ClientGen.Proofs.Passes

/-! # Scopes of a client

In all files of all passes the names of each scope are apart, even without the mark of the raw
form. Preserved names are the exception: a union has its variants from them as they are.
-/
namespace ClientGen.Generator
open Code (Item)
open Ident (Apart)
open Sdk

/-- The union has the variant from a preserved name in the raw form. -/
def KeptRaw (g : Generator) (union variant : String) : Prop :=
  DataTypes.KeptRaw g.config.preservedNames g.models.value union variant

theorem apart_items (g : Generator) (pass : Pass) {f : Code.File}
    (hf : f ∈ (g.files pass).value) {i : Item} (hi : i ∈ f.module.items) :
    i.ScopesApart g.KeptRaw := by
  cases pass with
  | models =>
    refine DataTypes.apart_files ?_ hf i hi
    intro m hm n hlists hraw
    exact Classify.mem_keep_of_isRaw hm hlists hraw
  | services => exact Calls.apart_files hf hi
  | builder =>
    rw [value_files_builder, List.mem_singleton] at hf
    subst hf
    exact Navigation.apart_moduleOf (Extract.extracted_of_mem_api _) hi

/-- Names that no other name of their scope is taken for. -/
structure NamesApart (g : Generator) : Prop where
  items (pass : Pass) : ∀ f ∈ (g.files pass).value, ∀ i ∈ f.module.items,
    i.ScopesApart g.KeptRaw
  arguments : ∀ f ∈ (g.files .services).value, ∀ fn, .function fn ∈ f.module.items →
    ∃ op ∈ g.api.value.operations, Calls.LeavesReserved op
      (.ofOperation (.ofModels g.models.value (some g.paths.models)) g.paths op) g.paths fn
  nodes : ∀ f ∈ (g.files .builder).value, Apart (f.module.items.filterMap Item.declared?)

/-- The names of each scope are apart. Only a variant that a union has from a preserved name in the
raw form may be another variant without the mark, though not as it is written. -/
theorem names_apart (g : Generator) : g.NamesApart where
  items pass _ hf _ hi := g.apart_items pass hf hi
  arguments f hf fn hfn := by
    obtain ⟨op,hop,rfl⟩ := Calls.exists_operation_of_function hf hfn
    exact ⟨op,hop,Calls.leavesReserved_function _ g.paths op⟩
  nodes f hf := by
    rw [value_files_builder, List.mem_singleton] at hf
    subst hf
    exact Navigation.apart_declared _ _ _ _

/-- A union of two records, one of them under a preserved name in the raw form. -/
def rawGate : Generator where
  document :=
    { paths := .empty
      components := some ⟨.ofList [
        ("Gate",.object [("type",.text "object")]),
        ("Way",.object [("oneOf",.list [
          .object [("$ref",.text "#/components/schemas/Gate")],
          .object [("$ref",.text "#/components/schemas/r#Gate")]])]),
        ("r#Gate",.object [("type",.text "object")])],.empty,.empty⟩ }
  config := { defaultConfig with preservedNames := ["r#Gate"] }
  paths := .default

theorem rawGate_variants_meet : ∃ f ∈ (rawGate.files .models).value, ∃ e,
    .enum e ∈ f.module.items ∧ e.variantNames = ["Gate","r#Gate"] ∧ ¬ Apart e.variantNames := by
  have hway : ["Gate","r#Gate"] ∈ (rawGate.files .models).value.flatMap fun f =>
      f.module.items.map fun i => (i.variantsOf "Way").map (·.name) := by
    decide +kernel
  obtain ⟨f,hf,hitem⟩ := List.mem_flatMap.mp hway
  obtain ⟨i,hi,hnames⟩ := List.mem_map.mp hitem
  cases i with
  | enum e =>
    simp only [Item.variantsOf] at hnames
    split at hnames
    · refine ⟨f,hf,e,hi,hnames,?_⟩
      rw [Code.Enum.variantNames, hnames]
      decide
    · cases hnames
  | _ => cases hnames

end ClientGen.Generator
