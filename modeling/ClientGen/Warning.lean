import ClientGen.Model.TypeRef
import ClientGen.Operation.Method
import ClientGen.Text.Quoted

/-! # Warnings

What a run reports without failing, as data, and results that carry the warnings given on the way.
-/
namespace ClientGen

inductive Warning
  | malformedSchema (schema : String)
  | unclassifiedSchema (schema : String)
  | unusableSchema (schema : String) (cause : TypeError)
  | takenTypeName (schema typeName existing : String)
  | droppedEnumValues (schema : String) (count : Nat)
  | unusableProperty (property : String) (cause : TypeError)
  | unownedOperation (id : String) (method : Method) (path : String)
  | renamedFunction (id package name : String)
  | unresolvedParameter (declaredId : Option String)
  | unplacedParameter (id parameter : String)
  | untypedParameter (context parameter : String) (cause : TypeError)
  | skippedBody (id media : String) (cause : TypeError)
  | unresolvedResponse (id status : String)
  | untypedResponse (id status : String) (cause : TypeError)
  | emptyEnum (model : String)
  | emptyUnion (model : String)
  | mixedQueryTypes (package parameter : String)
  | outsideNavigation (id path rootSegment : String)
  deriving DecidableEq, Repr

/-- A detail of a warning, as a text or as a number. -/
inductive Detail
  | text (s : String)
  | count (n : Nat)
  deriving DecidableEq, Repr

def Detail.shown : Detail → String
  | text s => s
  | count n => toString n

namespace Warning

def message : Warning → String
  | malformedSchema _ => "Skipping malformed schema"
  | unclassifiedSchema _ => "Skipping schema that matches no model kind"
  | unusableSchema .. => "Failed to process schema"
  | takenTypeName .. => "Skipping schema whose type name is already taken"
  | droppedEnumValues .. => "Dropped enum values that do not match the base type"
  | unusableProperty .. => "Failed to process property"
  | unownedOperation .. => "Excluding operation with no owning service"
  | renamedFunction .. => "Function name already taken in package, renamed"
  | unresolvedParameter _ => "Skipping unresolvable parameter reference"
  | unplacedParameter .. => "Dropping path parameter missing from template"
  | untypedParameter .. => "Parameter type defaults to string"
  | skippedBody .. => "Skipping request body media type"
  | unresolvedResponse .. => "Unresolvable response reference, using any"
  | untypedResponse .. => "Response type defaults to any"
  | emptyEnum _ => "Enum has no usable values, generating a String alias"
  | emptyUnion _ => "Union has no usable members, generating a serde_json::Value alias"
  | mixedQueryTypes .. => "Query parameter declared with different types, using string"
  | outsideNavigation .. => "Operation is outside the builder root, no builder method generated"

def shownOption : Option String → String
  | none => "None"
  | some s => "Some(" ++ Text.quote s ++ ")"

def details : Warning → List (String × Detail)
  | malformedSchema schema => [("schema", .text schema)]
  | unclassifiedSchema schema => [("schema", .text schema)]
  | unusableSchema schema cause => [("schema", .text schema), ("error", .text cause.message)]
  | takenTypeName schema typeName existing =>
    [("schema", .text schema), ("type_name", .text typeName), ("existing", .text existing)]
  | droppedEnumValues schema count => [("schema", .text schema), ("skipped", .count count)]
  | unusableProperty property cause =>
    [("property", .text property), ("error", .text cause.message)]
  | unownedOperation id method path =>
    [("operation_id", .text id), ("method", .text method.name), ("path", .text path)]
  | renamedFunction id package name =>
    [("operation_id", .text id), ("package", .text package), ("fn_name", .text name)]
  | unresolvedParameter declaredId => [("operation_id", .text (shownOption declaredId))]
  | unplacedParameter id parameter => [("operation_id", .text id), ("param", .text parameter)]
  | untypedParameter context parameter cause =>
    [("context", .text context), ("param", .text parameter), ("error", .text cause.message)]
  | skippedBody id media cause =>
    [("operation_id", .text id), ("media", .text media), ("error", .text cause.message)]
  | unresolvedResponse id status => [("operation_id", .text id), ("status", .text status)]
  | untypedResponse id status cause =>
    [("operation_id", .text id), ("status", .text status), ("error", .text cause.message)]
  | emptyEnum model => [("model", .text model)]
  | emptyUnion model => [("model", .text model)]
  | mixedQueryTypes package parameter => [("package", .text package), ("param", .text parameter)]
  | outsideNavigation id path rootSegment =>
    [("operation_id", .text id), ("path", .text path), ("root_segment", .text rootSegment)]

/-- The warning on a line. -/
def line (w : Warning) : String :=
  "warning: " ++ w.message ++ String.join (w.details.map fun (k, d) => " " ++ k ++ "=" ++ d.shown)

end Warning

structure Logged (α : Type u) where
  value : α
  warnings : List Warning
  deriving DecidableEq, Repr

namespace Logged

instance : Monad Logged where
  pure x := ⟨x, []⟩
  bind m f := ⟨(f m.value).value, m.warnings ++ (f m.value).warnings⟩

def warn (w : Warning) : Logged Unit :=
  ⟨(), [w]⟩

end Logged
end ClientGen
