import ClientGen.Document
import ClientGen.Proofs.Data.Readers

/-! # Order of members in a document

A document means the same in whatever order its objects list their members, except for the content
of request bodies and responses: the order of media types there is part of what it means.
-/
namespace ClientGen
namespace Document
variable {α : Type}

/-- Places in a document. No member or item of what stands at `free` is at another place. -/
inductive Zone
  | document
  | paths
  | path
  | endpoint
  | body
  | responses
  | response
  | content
  | components
  | free
  deriving DecidableEq

namespace Zone

def member : Zone → String → Zone
  | document, "paths" => paths
  | document, "components" => components
  | paths, _ => path
  | path, name => if name ∈ ["get", "post", "put", "patch", "delete"] then endpoint else free
  | endpoint, "requestBody" => body
  | endpoint, "responses" => responses
  | body, "content" => content
  | responses, _ => response
  | response, "content" => content
  | components, "responses" => responses
  | _, _ => free

/-- Members of a record by their positions, for a record that is written as a list. -/
def names : Zone → List String
  | document => ["paths", "components"]
  | path => ["get", "post", "put", "patch", "delete", "parameters"]
  | endpoint => ["operationId", "summary", "description", "tags", "x-service", "parameters",
      "requestBody", "responses"]
  | body => ["required", "content"]
  | response => ["description", "content"]
  | components => ["schemas", "parameters", "responses"]
  | _ => []

def item (z : Zone) (i : Nat) : Zone :=
  (z.names[i]?).elim free z.member

/-- The places of a document, with an order that counts for media types only. -/
def layout : Layout Zone where
  member := member
  item := item
  ordered := (· = content)

theorem item_eq (z : Zone) (i : Nat) (name : String) (h : z.names[i]? = some name) :
    layout.item z i = layout.member z name := by
  simp [layout, item, h]

end Zone

open Zone

/-! ## Readers -/

theorem agrees_readType : Agrees layout free Schema.readType :=
  .either (.map .text? _) (.map (.listOf fun _ => .text?) _)

theorem agrees_readAt (fuel : Nat) : Agrees layout free (Schema.readAt fuel) := by
  induction fuel with
  | zero => exact fun _ _ _ => rfl
  | succ fuel ih =>
    refine .record (fun _ _ _ => rfl) fun m m' h => ?_
    simp only [h.optional "type" agrees_readType, h.optional "$ref" .text?,
      h.optional "title" .text?, h.optional "description" .text?, h.optional "format" .text?,
      h.defaulted "properties" _ (.dictOf fun _ => .json?),
      h.defaulted "required" _ (.listOf fun _ => .text?), h.optional "items" ih,
      h.optional "enum" (.listOf fun _ => .json?), h.optional "oneOf" (.listOf fun _ => ih),
      h.optional "additionalProperties" (.either (.map .bool? _) (.map ih _)),
      h.optional "const" .json?, h.optional "nullable" .bool?]

theorem agrees_schema : Agrees layout free Schema.read := by
  intro t t' h
  rw [Schema.read, Schema.read, h.height_eq]
  exact agrees_readAt _ t t' h

theorem agrees_reference {z : Zone} (hitem : layout.item z 0 = free)
    (hmember : layout.member z "$ref" = free) : Agrees layout z readReference := by
  refine .record (fun i name hi => ?_) fun m m' h => h.required "$ref" (hmember ▸ .text?)
  obtain ⟨rfl,rfl⟩ : i = 0 ∧ name = "$ref" := by
    cases i <;> simp_all
  rw [hitem, hmember]

theorem agrees_orRef {z : Zone} {read : Reader α} (hitem : layout.item z 0 = free)
    (hmember : layout.member z "$ref" = free) (h : Agrees layout z read) :
    Agrees layout z (OrRef.reader read) :=
  .either (.map (agrees_reference hitem hmember) _) (.map h _)

theorem agrees_parameter : Agrees layout free Parameter.read := by
  refine .record (fun _ _ _ => rfl) fun m m' h => ?_
  simp only [h.required "name" .text?, h.required "in" .text?, h.defaulted "required" _ .bool?,
    h.optional "description" .text?, h.optional "schema" agrees_schema]

theorem agrees_mediaType : Agrees layout free readMediaType :=
  .record (fun _ _ _ => rfl) fun _ _ h => h.optional "schema" agrees_schema

theorem agrees_content : Agrees layout content Content.read :=
  .entriesOf rfl fun _ => agrees_mediaType

/-- Media types stay in the order in which they are listed. -/
example : (Content.read (.object [(.text "text/plain",.object []),
    (.text "application/json",.object [])])).map (·.map (·.1)) =
      some ["text/plain","application/json"] :=
  rfl

theorem agrees_body : Agrees layout body RequestBody.read := by
  refine .record (item_eq .body) fun m m' h => ?_
  simp only [h.defaulted "required" _ .bool?, h.defaulted "content" _ agrees_content]

theorem agrees_response : Agrees layout response Response.read := by
  refine .record (item_eq .response) fun m m' h => ?_
  simp only [h.optional "description" .text?, h.optional "content" agrees_content]

theorem agrees_endpoint : Agrees layout endpoint Endpoint.read := by
  refine .record (item_eq .endpoint) fun m m' h => ?_
  simp only [h.optional "operationId" .text?, h.optional "summary" .text?,
    h.optional "description" .text?, h.defaulted "tags" _ (.listOf fun _ => .text?),
    h.optional "x-service" .text?,
    h.defaulted "parameters" _ (.listOf fun _ => agrees_orRef rfl rfl agrees_parameter),
    h.optional "requestBody" agrees_body,
    h.defaulted "responses" _ (.dictOf fun _ => agrees_orRef rfl rfl agrees_response)]

theorem agrees_path : Agrees layout path PathItem.read := by
  refine .record (item_eq .path) fun m m' h => ?_
  simp only [h.optional "get" agrees_endpoint, h.optional "post" agrees_endpoint,
    h.optional "put" agrees_endpoint, h.optional "patch" agrees_endpoint,
    h.optional "delete" agrees_endpoint,
    h.defaulted "parameters" _ (.listOf fun _ => agrees_orRef rfl rfl agrees_parameter)]

theorem agrees_components : Agrees layout .components Components.read := by
  refine .record (item_eq .components) fun m m' h => ?_
  simp only [h.defaulted "schemas" _ (.dictOf fun _ => .json?),
    h.defaulted "parameters" _ (.dictOf fun _ => agrees_parameter),
    h.defaulted "responses" _ (.dictOf fun _ => agrees_response)]

theorem agrees_document : Agrees layout document Document.read := by
  refine .record (item_eq .document) fun m m' h => ?_
  simp only [h.defaulted "paths" _ (.dictOf fun _ => agrees_path),
    h.optional "components" agrees_components]

end Document
end ClientGen
