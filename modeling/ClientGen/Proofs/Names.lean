import ClientGen.Proofs.Calls.Names
import ClientGen.Proofs.Classify.Members
import ClientGen.Proofs.Classify.Pointers
import ClientGen.Proofs.DataTypes.Names
import ClientGen.Proofs.Navigation.Names
import ClientGen.Proofs.Passes

/-! # Names of a client

Whatever the document calls things, the generated code gives them names that it can declare. Only
preserved names are taken over as they are, so they have to be such names.
-/
namespace ClientGen

theorem Classify.plain_typeName {keep : List String} (h : ∀ n ∈ keep, Ident.Plain n)
    (raw : String) : Ident.Plain (typeName keep raw) := by
  unfold typeName
  split
  · rename_i hkeep
    exact h raw (List.contains_iff_mem.mp hkeep)
  · exact (Ident.capital_typeName raw).plain

namespace Generator
open Sdk

/-- All names that the files of all passes give to types, modules, fields, variants, constants,
functions and parameters can be declared, as soon as the preserved names can. -/
theorem declaredNames_declarable (g : Generator)
    (hkeep : ∀ n ∈ g.config.preservedNames, Ident.Plain n) (pass : Pass) :
    ∀ f ∈ (g.files pass).value, ∀ n ∈ f.module.declaredNames, Ident.Declarable n := by
  intro f hf n hn
  obtain ⟨i,hi,hn⟩ := List.mem_flatMap.mp hn
  have hextracted : ∀ op ∈ g.api.value.operations, op.Extracted := Extract.extracted_of_mem_api _
  refine (show i.Declarable from ?_) n hn
  cases pass with
  | models =>
    refine DataTypes.declarable_files g.nodup_models (fun m hm => ⟨?_,fun n hlists => ?_⟩) hf i hi
    · rw [Classify.name_of_mem_models hm]
      exact Classify.plain_typeName hkeep m.sourceName
    · obtain ⟨raw,rfl⟩ := Classify.exists_of_lists hm hlists
      exact Classify.plain_typeName hkeep raw
  | services => exact Calls.declarable_files hextracted hf hi
  | builder =>
    rw [value_files_builder, List.mem_singleton] at hf
    subst hf
    exact Navigation.declarable_moduleOf hextracted hi

/-- Names in a foreign alphabet, with digits in front, of symbols only, and of words of the
language. -/
def unruly : Generator where
  document :=
    { paths := .ofList [("/self/{type}/2*",tagged "match" "3d"),("/{}",tagged "" "Ω")]
      components := some ⟨.ofList [
        ("iPad",.object [("type",.text "object"),("properties",.object [
          ("type",.object []),("Self",.object []),("ß",.object []),("self_",.object [])])]),
        ("self",.object [("enum",.list [.text "",.text "self",.text "-1"])]),
        ("2nd",.object [("type",.text "integer"),("enum",.list [.int (-1),.int 1])])],
        .empty,.empty⟩ }
  config := { defaultConfig with preservedNames := ["iPad"] }
  paths := .default

theorem declaredNames_declarable_unruly : (∀ n ∈ unruly.config.preservedNames, Ident.Plain n) ∧
    ∀ pass, ∀ f ∈ (unruly.files pass).value, ∀ n ∈ f.module.declaredNames, Ident.Declarable n :=
  ⟨by decide,declaredNames_declarable unruly (by decide)⟩

example : (unruly.files .models).value.map (·.module.declaredNames) = [
    ["N2nd","VALUE_N1","VALUE_1","value"],
    ["SelfType","Empty","SelfValue","N1","as_str","fmt","f"],
    ["iPad","self_","self__2","r#type","value"],
    ["n2nd","self_type","i_pad"]] := by
  decide +kernel

end Generator
end ClientGen
