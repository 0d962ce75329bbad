import ClientGen.Config
import ClientGen.Ident
import ClientGen.Operation.Method
import ClientGen.Operation.Template

/-! # Operation ids and ownership

The one place that decides an operation's id and the package that owns it. The first of these names
the service: the table of operations, a keyword in the path, a keyword in the id, the service
extension, the first tag, the segment after a routing prefix. An operation without any has no owner.
-/
namespace ClientGen

inductive OwnershipRule
  | operationTable
  | pathKeyword
  | idKeyword
  | extension
  | tag
  | routing
  deriving DecidableEq, Repr

def OwnershipRule.name : OwnershipRule → String
  | operationTable => "operation-override"
  | pathKeyword => "path-keyword"
  | idKeyword => "id-keyword"
  | extension => "x-service"
  | tag => "tag"
  | routing => "path-prefix"

structure Owner where
  service : String
  /-- The module that the service's operations are generated into. -/
  package : String
  rule : OwnershipRule
  deriving DecidableEq, Repr

/-- What an operation itself declares about its service. -/
structure OwnerHints where
  service : Option String
  tags : List String

namespace Naming

/-- The configured id, the declared one, or one made of the method and the literal segments. -/
def operationId (n : Naming) (method : Method) (path : String) (declared : Option String) :
    String :=
  match n.operationIds.get? (method.name ++ ":" ++ path) with
  | some id => id
  | none =>
    match declared.filter (! ·.isEmpty) with
    | some id => id
    | none =>
      let literals := (Template.segments path).filter (! ·.toList.contains '{')
      Ident.lowerCamel (method.lowerName :: literals)

def loweredKeywords (n : Naming) : List String :=
  (n.keywords.filter (! ·.isEmpty)).map Text.lowerAscii

/-- The first keyword in a text, in whatever case. -/
def keywordIn? (n : Naming) (text : String) : Option String :=
  let text := (Text.lowerAscii text).toList
  n.loweredKeywords.find? fun k => Text.occursIn k.toList text

/-- The service that a segment after a routing prefix names. -/
def routedService? (n : Naming) (segment : String) : Option String :=
  if segment.toList.contains '{' then none
  else
    let stripped := if n.routingStrip.isEmpty then none
      else n.routingStrip.toList.isPrefixOf? segment.toList
    let service := (stripped.map String.ofList).getD segment
    if service.isEmpty then none else some service

def serviceAfterPrefix? (n : Naming) : List String → Option String
  | a :: b :: rest =>
    let here := if n.routingPrefixes.contains a then n.routedService? b else none
    here <|> serviceAfterPrefix? n (b :: rest)
  | _ => none

def service? (n : Naming) (id path : String) (hints : OwnerHints) :
    Option (String × OwnershipRule) :=
  (n.operationServices.get? id).map (·, .operationTable) <|>
  (n.keywordIn? path).map (·, .pathKeyword) <|>
  (n.keywordIn? id).map (·, .idKeyword) <|>
  (hints.service.filter (! ·.isEmpty)).map (·, .extension) <|>
  (hints.tags.head?.filter (! ·.isEmpty)).map (·, .tag) <|>
  (n.serviceAfterPrefix? (Template.segments path)).map (·, .routing)

def separator (c : Char) : Bool :=
  c == '-' || c == '.' || c == ' '

/-- The configured package of a service, else its name in snake case. -/
def packageOf (n : Naming) (service : String) : String :=
  match n.servicePackages.get? service with
  | some package => package
  | none =>
    let separated := service.toList.map fun c => if separator c then '_' else c
    Text.lowerAscii (Ident.snake (String.ofList separated))

def owner? (n : Naming) (id path : String) (hints : OwnerHints) : Option Owner :=
  (n.service? id path hints).map fun (service, rule) => ⟨service, n.packageOf service, rule⟩

end Naming
end ClientGen
