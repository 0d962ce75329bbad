import ClientGen.Generator
import ClientGen.Proofs.Classify.Models
import ClientGen.Proofs.Logged

/-! # What each pass makes

The files of each pass from the models and operations of the document.
-/
namespace ClientGen.Generator

theorem value_files_models (g : Generator) :
    (g.files .models).value = (Sdk.DataTypes.files g.models.value).value := rfl

theorem value_files_services (g : Generator) :
    (g.files .services).value = (Sdk.Calls.files g.models.value g.api.value g.paths).value := rfl

/-- The only file of navigation. -/
def builderFile (g : Generator) : Code.File :=
  ⟨"builder.rs",(Sdk.Navigation.moduleOf g.models.value g.api.value.operations
    g.config.rootSegment g.paths).value⟩

theorem value_files_builder (g : Generator) : (g.files .builder).value = [g.builderFile] := rfl

theorem nodup_models (g : Generator) : (g.models.value.map (·.name)).Nodup :=
  Classify.nodup_models _ _

theorem models_linked (g : Generator) : Classify.Linked g.models.value :=
  Classify.models_linked _ _

/-! ## Small inputs -/

def defaultConfig : Config where
  version := 1
  naming := .default
  preservedNames := Config.defaultPreservedNames
  rootSegment := Config.defaultRootSegment

/-- A path with a GET that has an id and a tag. -/
def tagged (id tag : String) : PathItem where
  get := some ⟨some id,none,none,[tag],none,[],none,.empty⟩
  post := none
  put := none
  patch := none
  delete := none
  parameters := []

end ClientGen.Generator
