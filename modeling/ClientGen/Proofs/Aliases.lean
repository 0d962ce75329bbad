import ClientGen.Proofs.DataTypes.Aliases
import ClientGen.Proofs.Passes
import Mathlib.Tactic.TFAE

/-! # When aliases can be expanded

The type aliases of the models pass come from aliases and maps. Nothing keeps a schema of either
kind from leading back to itself, so an alias may stand for a type without end. It does exactly when
the schemas that stand for aliases and maps name each other in a circle. An alias that has the name
of a built-in type takes its place, which may close a circle as the files are read.
-/
namespace ClientGen.Generator
open Relation (TransGen)
open Sdk.DataTypes (Mentions Names NamesRead)

/-- The schema behind the model `a` stands for a type that names `b`. -/
def SchemaNames (g : Generator) (a b : String) : Prop :=
  ∃ m ∈ g.models.value, m.name = a ∧ ∃ s v, Classify.schema? g.document m.sourceName = some s ∧
    Classify.standIn? s = some v ∧ Classify.TypeNames g.config.preservedNames v b

theorem schemaNames_iff {g : Generator} {a b : String} :
    g.SchemaNames a b ↔ Names g.models.value a b := by
  refine exists_congr fun m => and_congr_right fun hm => and_congr_right fun _ => ?_
  obtain ⟨s,hs,hkind⟩ := Classify.hasSource_models hm
  rw [Classify.meaning_kindOf hkind]
  constructor
  · rintro ⟨s',v,hs',h⟩
    cases hs.symm.trans hs'
    exact ⟨v,h⟩
  · rintro ⟨v,h⟩
    exact ⟨s,v,hs,h⟩

theorem aliasesEnd_models_iff {g : Generator} : Code.AliasesEnd (g.files .models).value ↔
    ∀ a, ¬ TransGen (Mentions g.models.value) a a := by
  rw [value_files_models, Code.aliasesEnd_iff, Sdk.DataTypes.acyclic_files_iff g.nodup_models,
    Sdk.DataTypes.acyclic_mentions_iff]

theorem aliasesEnd_read_iff {g : Generator} :
    Code.AliasesEnd ((g.files .models).value.map Code.File.read) ↔
      ∀ a, ¬ TransGen (NamesRead g.models.value) a a := by
  have hnames : (fun a b => (a,b) ∈ Code.aliasMentions
      ((Sdk.DataTypes.files g.models.value).value.map Code.File.read)) =
        NamesRead g.models.value :=
    funext fun _ => funext fun _ =>
      propext (Sdk.DataTypes.mem_aliasMentions_read_files g.nodup_models)
  rw [value_files_models, Code.aliasesEnd_iff, hnames]

/-- Aliases and maps mention each other without a cycle exactly when expanding the generated
aliases always ends, and when the schemas behind them name each other without a cycle. As the files
are read, expanding ends exactly when no alias names itself through others, be it by the name of a
built-in type. -/
theorem aliases_end_tfae (g : Generator) : List.TFAE [
    ∀ a, ¬ TransGen (Mentions g.models.value) a a,
    Code.AliasesEnd (g.files .models).value,
    ∀ a, ¬ TransGen g.SchemaNames a a] ∧
    (Code.AliasesEnd ((g.files .models).value.map Code.File.read) ↔
      ∀ a, ¬ TransGen (NamesRead g.models.value) a a) := by
  have hschemas : g.SchemaNames = Names g.models.value :=
    funext fun _ => funext fun _ => propext schemaNames_iff
  refine ⟨?_,aliasesEnd_read_iff⟩
  tfae_have 1 ↔ 2 := aliasesEnd_models_iff.symm
  tfae_have 1 ↔ 3 := by
    rw [hschemas]
    exact Sdk.DataTypes.acyclic_mentions_iff
  tfae_finish

/-- A schema whose values are tables of its own kind. -/
def tree : Generator where
  document :=
    { paths := .empty
      components := some ⟨.ofList [("Tree",.object [
        ("additionalProperties",.object [("$ref",.text "#/components/schemas/Tree")]),
        ("type",.text "object")])],.empty,.empty⟩ }
  config := defaultConfig
  paths := .default

/-- Its alias stands for a table of itself, and cannot be expanded. -/
theorem tree_without_end : TransGen (Mentions tree.models.value) "Tree" "Tree" ∧
    ¬ Code.AliasesEnd (tree.files .models).value := by
  have hmodels : tree.models.value = [⟨"Tree","Tree",none,.map (.named "Tree"),[]⟩] := by
    decide +kernel
  have hcycle : TransGen (Mentions tree.models.value) "Tree" "Tree" := by
    rw [hmodels]
    refine .single ⟨⟨_,List.mem_singleton_self _,rfl,_,rfl,?_⟩,_,List.mem_singleton_self _,rfl,rfl⟩
    exact List.mem_singleton_self _
  exact ⟨hcycle,fun hends => aliasesEnd_models_iff.mp hends "Tree" hcycle⟩

end ClientGen.Generator
