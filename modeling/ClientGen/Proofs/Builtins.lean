import ClientGen.Proofs.DataTypes.Builtins
import ClientGen.Proofs.Passes

/-! # Built-in types of a client

Names of models are free, so a schema may be called after a built-in type. Its file, and each file
that imports it, then mean the model wherever they name the built-in type.
-/
namespace ClientGen.Generator
open Sdk

/-- Every file means built-in types by their names exactly when no model has the name of one that
its own file needs, or the file of a model that mentions it. -/
theorem uncaptured_iff (g : Generator) : (∀ f ∈ (g.files .models).value, f.module.Uncaptured) ↔
    ∀ m ∈ g.models.value, ∀ v ∈ g.models.value, v.name = m.name ∨ m.Mentions v.name →
      ¬ m.Needs (.ofModels g.models.value) v.name := by
  rw [value_files_models]
  exact DataTypes.uncaptured_files g.nodup_models g.models_linked

/-- Notes with a text and a number of their author, which is called `String`. -/
def numberedAuthors : Generator where
  document :=
    { paths := .empty
      components := some ⟨.ofList [
        ("Note",.object [("type",.text "object"),
          ("required",.list [.text "author",.text "text"]),
          ("properties",.object [
            ("author",.object [("$ref",.text "#/components/schemas/String")]),
            ("text",.object [("type",.text "string")])])]),
        ("String",.object [("type",.text "integer"),("title",.text "number of a person")])],
        .empty,.empty⟩ }
  config := defaultConfig
  paths := .default

theorem numberedAuthors_capture_text :
    ¬ ∀ f ∈ (numberedAuthors.files .models).value, f.module.Uncaptured := by
  have hnote : ∃ m ∈ numberedAuthors.models.value,
      .named "String" ∈ m.kind.written ∧ .text ∈ m.kind.written := by
    decide +kernel
  have hstring : ∃ v ∈ numberedAuthors.models.value, v.name = "String" := by
    decide +kernel
  obtain ⟨m,hm,hauthor,htext⟩ := hnote
  obtain ⟨v,hv,hname⟩ := hstring
  intro h
  have happart := (DataTypes.uncaptured_files (nodup_models _) (models_linked _)).mp h m hm v hv
  rw [hname] at happart
  exact happart (.inr (.inl ⟨_,hauthor,List.mem_singleton_self _⟩))
    (.written htext (List.mem_singleton_self _))

end ClientGen.Generator
