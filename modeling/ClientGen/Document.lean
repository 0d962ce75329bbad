import ClientGen.Data.JsonText
import ClientGen.Data.Yaml
import ClientGen.Delivery.Path
import ClientGen.Document.Schema

/-! # API documents

The part of an OpenAPI document that the generator reads. Component schemas stay plain JSON, so that
a malformed one can be left out without rejecting the document.
-/
namespace ClientGen

/-- Something given in place, or by a reference to where it is. -/
inductive OrRef (α : Type)
  | ref (target : String)
  | here (x : α)

structure Parameter where
  name : String
  /-- `path`, `query`, `header` or `cookie`. -/
  location : String
  required : Bool
  description : Option String
  schema : Option Schema

/-- Media types with their schemas in document order. -/
abbrev Content := List (String × Option Schema)

structure RequestBody where
  required : Bool
  content : Content

structure Response where
  description : Option String
  content : Option Content

/-- What a document declares for one method of a path. -/
structure Endpoint where
  operationId : Option String
  summary : Option String
  description : Option String
  tags : List String
  service : Option String
  parameters : List (OrRef Parameter)
  requestBody : Option RequestBody
  responses : Dict (OrRef Response)

structure PathItem where
  get : Option Endpoint
  post : Option Endpoint
  put : Option Endpoint
  patch : Option Endpoint
  delete : Option Endpoint
  /-- Shared by all methods of the path. -/
  parameters : List (OrRef Parameter)

structure Components where
  schemas : Dict Json
  parameters : Dict Parameter
  responses : Dict Response

structure Document where
  paths : Dict PathItem
  components : Option Components

inductive Format
  | json
  | yaml
  deriving DecidableEq, Repr

inductive DocumentError
  | unreadable (path : String)
  /-- With no format given, neither format fits. -/
  | malformed (origin : String) (format : Option Format)
  deriving DecidableEq

/-! ## Reading -/

def readReference : Reader String := fun t => do
  let m ← Members.read? ["$ref"] t
  m.required "$ref" Tree.text?

def OrRef.reader (read : Reader α) : Reader (OrRef α) :=
  .either (fun t => (readReference t).map .ref) (fun t => (read t).map .here)

def Parameter.read : Reader Parameter := fun t => do
  let m ← Members.read? ["name", "in", "required", "description", "schema"] t
  return {
    name := ← m.required "name" Tree.text?
    location := ← m.required "in" Tree.text?
    required := ← m.defaulted "required" false Tree.bool?
    description := ← m.optional "description" Tree.text?
    schema := ← m.optional "schema" Schema.read }

def readMediaType : Reader (Option Schema) := fun t => do
  let m ← Members.read? ["schema"] t
  m.optional "schema" Schema.read

def Content.read : Reader Content :=
  .entriesOf readMediaType

def RequestBody.read : Reader RequestBody := fun t => do
  let m ← Members.read? ["required", "content"] t
  return {
    required := ← m.defaulted "required" false Tree.bool?
    content := ← m.defaulted "content" [] Content.read }

def Response.read : Reader Response := fun t => do
  let m ← Members.read? ["description", "content"] t
  return {
    description := ← m.optional "description" Tree.text?
    content := ← m.optional "content" Content.read }

def Endpoint.read : Reader Endpoint := fun t => do
  let m ← Members.read?
    ["operationId", "summary", "description", "tags", "x-service", "parameters", "requestBody",
      "responses"] t
  return {
    operationId := ← m.optional "operationId" Tree.text?
    summary := ← m.optional "summary" Tree.text?
    description := ← m.optional "description" Tree.text?
    tags := ← m.defaulted "tags" [] (.listOf Tree.text?)
    service := ← m.optional "x-service" Tree.text?
    parameters := ← m.defaulted "parameters" [] (.listOf (OrRef.reader Parameter.read))
    requestBody := ← m.optional "requestBody" RequestBody.read
    responses := ← m.defaulted "responses" .empty (.dictOf (OrRef.reader Response.read)) }

def PathItem.read : Reader PathItem := fun t => do
  let m ← Members.read? ["get", "post", "put", "patch", "delete", "parameters"] t
  return {
    get := ← m.optional "get" Endpoint.read
    post := ← m.optional "post" Endpoint.read
    put := ← m.optional "put" Endpoint.read
    patch := ← m.optional "patch" Endpoint.read
    delete := ← m.optional "delete" Endpoint.read
    parameters := ← m.defaulted "parameters" [] (.listOf (OrRef.reader Parameter.read)) }

def Components.read : Reader Components := fun t => do
  let m ← Members.read? ["schemas", "parameters", "responses"] t
  return {
    schemas := ← m.defaulted "schemas" .empty (.dictOf Tree.json?)
    parameters := ← m.defaulted "parameters" .empty (.dictOf Parameter.read)
    responses := ← m.defaulted "responses" .empty (.dictOf Response.read) }

namespace Document

def read : Reader Document := fun t => do
  let m ← Members.read? ["paths", "components"] t
  return {
    paths := ← m.defaulted "paths" .empty (.dictOf PathItem.read)
    components := ← m.optional "components" Components.read }

def readAs (text : String) : Format → Option Document
  | .json => (JsonText.read? text).bind read
  | .yaml => (Yaml.read? text).bind read

/-- With no format given, JSON is tried before YAML. -/
def ofText (text : String) (format : Option Format) (origin : String) :
    Except DocumentError Document :=
  let found := match format with
    | some f => readAs text f
    | none => readAs text .json <|> readAs text .yaml
  match found with
  | some d => .ok d
  | none => .error (.malformed origin format)

/-! ## References -/

def schemas (d : Document) : Dict Json :=
  (d.components.map (·.schemas)).getD .empty

/-- The name that a reference gives below `base`. -/
def localName? (base : String) (target : String) : Option String :=
  (base.toList.isPrefixOf? target.toList).map String.ofList

def parameter? (d : Document) : OrRef Parameter → Option Parameter
  | .here p => some p
  | .ref target => do
    (← d.components).parameters.get? (← localName? "#/components/parameters/" target)

def response? (d : Document) : OrRef Response → Option Response
  | .here r => some r
  | .ref target => do
    (← d.components).responses.get? (← localName? "#/components/responses/" target)

end Document

/-- The format that a file's extension names. -/
def Format.ofPath? (p : Path) : Option Format :=
  match (Path.extension? p).map Text.lowerAscii with
  | some "json" => some .json
  | some "yaml" => some .yaml
  | some "yml" => some .yaml
  | _ => none

def Format.name : Format → String
  | json => "JSON"
  | yaml => "YAML"

/-- What the error says. The reason that a reader found is not part of it. -/
def DocumentError.message : DocumentError → String
  | unreadable path => "failed to read " ++ path
  | malformed origin (some format) => "failed to parse " ++ origin ++ " as " ++ format.name
  | malformed origin none => "failed to parse " ++ origin ++ " as JSON or YAML"

end ClientGen
