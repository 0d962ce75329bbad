import ClientGen.Code
import ClientGen.Model
import ClientGen.Text.DocLines

/-! # Types and docs in generated code

How generated code writes the type of a value, and where it finds the modules that it uses. A model
that is not generated is written as the type of any value, so that what uses it still compiles.
-/
namespace ClientGen.Sdk
open Code (Ty)

/-- Paths of the modules that generated code refers to. -/
structure ModulePaths where
  models : String
  services : String
  /-- The runtime that the generated code is written against. -/
  client : String
  deriving DecidableEq, Repr

def ModulePaths.default : ModulePaths :=
  ⟨"crate::models", "crate::services", "crate::client"⟩

/-- The path of a name of the runtime. -/
def ModulePaths.runtime (p : ModulePaths) (name : String) : String :=
  p.client ++ "::" ++ name

/-- The generated models, as seen from the module of models or, by its path, from elsewhere. -/
structure ModelScope where
  known : List String
  path : Option String
  deriving DecidableEq, Repr

def ModelScope.ofModels (models : List Model) (path : Option String) : ModelScope :=
  ⟨models.map (·.name), path⟩

def ModelScope.knows (s : ModelScope) (name : String) : Bool :=
  s.known.contains name

def anyValue : Ty := .path "serde_json::Value"

def ModelScope.type (s : ModelScope) : TypeRef → Ty
  | .text => .path "String"
  | .timestamp => .generic "chrono::DateTime" [.path "chrono::Utc"]
  | .int32 => .path "i32"
  | .int64 => .path "i64"
  | .float32 => .path "f32"
  | .float64 => .path "f64"
  | .bool => .path "bool"
  | .any => anyValue
  | .named name => if s.knows name then .model s.path name else anyValue
  | .array item => .vec (s.type item)
  | .map value => .map (s.type value)

def ownedType : Scalar → Ty
  | .text => .path "String"
  | .int32 => .path "i32"
  | .int64 => .path "i64"
  | .float32 => .path "f32"
  | .float64 => .path "f64"
  | .bool => .path "bool"

/-- Text is passed by reference, other scalars by value. -/
def argumentType : Scalar → Ty
  | .text => .ref none (.path "str")
  | s => ownedType s

/-! ## Docs -/

def docsOf (description : Option String) : List String :=
  (description.map Text.docLines).getD []

def trimmed (s : String) : List Char :=
  Text.trim s.toList

/-- The summary, then the description unless it says the same. -/
def summaryDocs (summary description : Option String) : List String :=
  let head := docsOf summary
  let body := docsOf description
  if body.isEmpty || summary.map trimmed == description.map trimmed then head
  else if head.isEmpty then body
  else head ++ "" :: body

end ClientGen.Sdk
