import ClientGen.Proofs.DataTypes.Declarations
import ClientGen.Proofs.Ident.Escape

/-! # Paths of data types

The files of models are named after their modules without the mark of the raw form, so they differ
from each other. One of them is named like the index where a model has the module `r#mod`.
-/
namespace ClientGen.Sdk.DataTypes
variable {models : List Model}

theorem map_path_files (models : List Model) : (files models).value.map (·.path) =
    (moduleNames models).map fileName ++ ["mod.rs"] := by
  have hlength : (moduleNames models).length ≤ models.length := by simp [moduleNames]
  have hpath : (·.path) ∘ fileOf models = fileName ∘ Prod.fst := rfl
  rw [value_files, List.map_append, List.map_map, hpath, ← List.map_map,
    List.map_fst_zip hlength]
  rfl

theorem escaped_base {base : String}
    (h : base ∈ models.map fun m => Ident.bindingName m.name) : Ident.Escaped base := by
  obtain ⟨m,_,rfl⟩ := List.mem_map.mp h
  exact Ident.escaped_bindingName m.name

theorem escaped_of_mem_moduleNames {module : String} (h : module ∈ moduleNames models) :
    Ident.Escaped module :=
  Ident.escaped_of_mem_reserveAll (fun _ => escaped_base) h

theorem nodup_fileNames (models : List Model) : ((moduleNames models).map fileName).Nodup := by
  refine List.Nodup.map_on ?_ (Ident.reserve_fresh.nodup_reserveAll _ _)
  intro a ha b hb h
  exact (escaped_of_mem_moduleNames ha).eq_of_unraw_eq (escaped_of_mem_moduleNames hb)
    ((String.append_left_inj ".rs").mp h)

/-- The index shares its name with the file of a model called after the keyword. -/
theorem index_mem_fileNames : "mod.rs" ∈ (moduleNames models).map fileName ↔
    ∃ m ∈ models, Ident.snake m.name = "mod" := by
  have hkey : Ident.isKeyword "mod" = true := by decide
  have hfile {module : String} (h : module ∈ moduleNames models) :
      fileName module = "mod.rs" ↔ module = "r#mod" := by
    rw [fileName, show "mod.rs" = "mod" ++ ".rs" from rfl, String.append_left_inj]
    exact (escaped_of_mem_moduleNames h).unraw_eq_iff hkey
  have hraw : "r#mod" ∈ moduleNames models ↔
      "r#mod" ∈ models.map fun m => Ident.bindingName m.name :=
    Ident.raw_mem_reserveAll (k := "mod") (fun _ => escaped_base) (by decide)
  calc "mod.rs" ∈ (moduleNames models).map fileName
      ↔ ∃ module ∈ moduleNames models, module = "r#mod" := by
        rw [List.mem_map]
        exact exists_congr fun _ => and_congr_right hfile
    _ ↔ ∃ m ∈ models, Ident.bindingName m.name = "r#mod" := by
        rw [exists_eq_right, hraw, List.mem_map]
    _ ↔ ∃ m ∈ models, Ident.snake m.name = "mod" := by
        exact exists_congr fun _ =>
          and_congr_right fun _ => Ident.bindingName_eq_raw hkey (by decide)

theorem nodup_paths : ((files models).value.map (·.path)).Nodup ↔
    ∀ m ∈ models, Ident.snake m.name ≠ "mod" := by
  rw [map_path_files, ← List.concat_eq_append, List.nodup_concat, index_mem_fileNames]
  constructor
  · rintro ⟨hmod,_⟩ m hm he
    exact hmod ⟨m,hm,he⟩
  · intro h
    refine ⟨?_,nodup_fileNames models⟩
    rintro ⟨m,hm,he⟩
    exact h m hm he

end ClientGen.Sdk.DataTypes
