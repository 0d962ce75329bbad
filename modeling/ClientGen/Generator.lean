import ClientGen.Code.Render
import ClientGen.Config.Builtin
import ClientGen.Delivery
import ClientGen.Document
import ClientGen.Operation.Extract
import ClientGen.Sdk.Pass

/-! # Generation

From a document and a configuration to files ready for delivery. Each pass works its input out of
the document anew, so that passes run at different times agree on every name.
-/
namespace ClientGen

/-- All that the generated code depends on. -/
structure Generator where
  document : Document
  config : Config
  paths : Sdk.ModulePaths

inductive LoadError
  | config (e : ConfigError)
  | document (e : DocumentError)
  deriving DecidableEq

def LoadError.message : LoadError → String
  | config e => e.message
  | document e => e.message

/-- Turns a module into the text of its file, or says why it cannot. -/
abbrev Formatter := Code.Module → Verdict

namespace Generator

def models (g : Generator) : Logged (List Model) :=
  Classify.models g.config.preservedNames g.document

def api (g : Generator) : Logged Api :=
  Extract.api (.of g.config g.document)

/-- The files of a pass, which all but the models also need the operations for. -/
def files (g : Generator) (pass : Sdk.Pass) : Logged (List Code.File) := do
  let models ← g.models
  let api ← if pass = .models then pure ⟨[], []⟩ else g.api
  Sdk.files pass models api g.config.rootSegment g.paths

/-- The comment that begins every generated file. -/
def header (g : Generator) (pass : Sdk.Pass) : String :=
  "// Code generated by sdkgen " ++ pass.name ++ ". DO NOT EDIT.\n// sdkgen config: " ++
    g.config.fingerprint ++ "\n\n"

def artifact (g : Generator) (pass : Sdk.Pass) (output : Path) (format : Formatter)
    (file : Code.File) : Artifact :=
  let path := if pass.isSingleFile then output else Path.join output file.path
  .of path (g.header pass) file.module.render (format file.module)

/-- A pass for an output location: a directory, or the file of a pass that has only one. -/
def artifacts (g : Generator) (pass : Sdk.Pass) (output : Path) (format : Formatter) :
    Logged (List Artifact) := do
  return (← g.files pass).map (g.artifact pass output format)

/-! ## Loading -/

variable {m : Type → Type} [Monad m] [Storage m]

/-- The file's configuration, or the built-in one if there is no file. -/
def loadConfig : Option Path → ExceptT ConfigError m Config
  | none => Config.embedded
  | some path => do
    match ← Storage.read (m := m) path with
    | .text text => Config.ofToml text path
    | _ => throw (.unreadable path)

def loadDocument (path : Path) : ExceptT DocumentError m Document := do
  match ← Storage.read (m := m) path with
  | .text text => Document.ofText text (Format.ofPath? path) path
  | _ => throw (.unreadable path)

/-- Reads the configuration, then the document. -/
def load (document : Path) (config : Option Path) (paths : Sdk.ModulePaths) :
    ExceptT LoadError m Generator := do
  let config ← ExceptT.adapt .config (loadConfig config)
  return ⟨← ExceptT.adapt .document (loadDocument document), config, paths⟩

end Generator
end ClientGen
