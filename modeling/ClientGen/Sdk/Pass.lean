import ClientGen.Sdk.DataTypes
import ClientGen.Sdk.Navigation

/-! # Passes

The parts of a client that can be generated on their own.
-/
namespace ClientGen.Sdk

inductive Pass
  | models
  | services
  | builder
  deriving DecidableEq, Repr

namespace Pass

def all : List Pass := [models, services, builder]

def name : Pass → String
  | models => "models"
  | services => "services"
  | builder => "builder"

/-- Where the files go if nothing else is said: a directory, or the only file. -/
def defaultOutput : Pass → String
  | models => "models"
  | services => "services"
  | builder => "builder.rs"

def isSingleFile (p : Pass) : Bool :=
  p == builder

end Pass

/-- The files of a pass over models and operations. -/
def files (pass : Pass) (models : List Model) (api : Api) (rootSegment : String)
    (paths : ModulePaths) : Logged (List Code.File) :=
  match pass with
  | .models => DataTypes.files models
  | .services => Calls.files models api paths
  | .builder => do
    return [⟨pass.defaultOutput, ← Navigation.moduleOf models api.operations rootSegment paths⟩]

end ClientGen.Sdk
