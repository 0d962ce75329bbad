import ClientGen.Model.Classify
import ClientGen.Operation

/-! # Extraction of operations

The walk over paths and methods. Each endpoint either becomes an operation, complete with types and
a function name, or is excluded because nothing owns it.
-/
namespace ClientGen.Extract

/-- A document with the settings that its operations are read under. -/
structure Source where
  document : Document
  naming : Naming
  preservedNames : List String

def Source.of (c : Config) (d : Document) : Source :=
  ⟨d, c.naming, c.preservedNames⟩

def endpoint? (item : PathItem) : Method → Option Endpoint
  | .delete => item.delete
  | .get => item.get
  | .patch => item.patch
  | .post => item.post
  | .put => item.put

/-! ## Parameters -/

/-- A declaration takes the place of an earlier one of the same name and location. -/
def overlay (p : Parameter) : List Parameter → List Parameter
  | [] => [p]
  | q :: rest =>
    if q.name = p.name ∧ q.location = p.location then p :: rest else q :: overlay p rest

/-- The path's parameters overlaid with the endpoint's own. -/
def parameters (s : Source) (item : PathItem) (e : Endpoint) : Logged (List Parameter) :=
  (item.parameters ++ e.parameters).foldlM (fun merged p =>
    match s.document.parameter? p with
    | some p => return overlay p merged
    | none => do
      Logged.warn (.unresolvedParameter e.operationId)
      return merged) []

def parameterType (s : Source) (context : String) (p : Parameter) : Logged TypeRef :=
  match p.schema with
  | none => return .text
  | some schema =>
    match Classify.typeRef s.preservedNames schema with
    | .ok t => return t
    | .error cause => do
      Logged.warn (.untypedParameter context p.name cause)
      return .text

def located (location : String) (ps : List Parameter) : Dict Parameter :=
  .ofList ((ps.filter (·.location == location)).map fun p => (p.name, p))

/-- One for each placeholder; an undeclared one is text. -/
def pathParams (s : Source) (id path : String) (ps : List Parameter) : Logged (List PathParam) := do
  let declared := located "path" ps
  let names := Template.placeholders path
  for name in declared.keys do
    if !names.contains name then Logged.warn (.unplacedParameter id name)
  names.mapM fun name =>
    match declared.get? name with
    | some p => return ⟨name, ← parameterType s id p, p.description⟩
    | none => return ⟨name, .text, none⟩

def queryParam (s : Source) (p : Parameter) : Logged QueryParam :=
  return ⟨p.name, ← parameterType s p.name p, p.required, p.description⟩

/-- In the order of names; types are worked out in the order of declaration. -/
def queryParams (s : Source) (ps : List Parameter) : Logged (List QueryParam) := do
  let found ← (ps.filter (·.location == "query")).mapM (queryParam s)
  return (Dict.ofList (found.map fun q => (q.name, q))).values

/-! ## Bodies -/

/-- The model that a schema refers to, itself or as the items of an array. -/
def referredType? (s : Source) (schema : Schema) : Option (Except TypeError TypeRef) :=
  match schema.ref with
  | some target => some ((Classify.refName s.preservedNames target).map .named)
  | none => schema.itemsRef?.map fun target =>
    (Classify.refName s.preservedNames target).map fun n => .array (.named n)

/-- The first media type that refers to a model. -/
def bodyType (s : Source) (id : String) : Content → Logged (Option TypeRef)
  | [] => return none
  | (media, schema) :: rest =>
    match schema.bind (referredType? s) with
    | none => bodyType s id rest
    | some (.ok t) => return some t
    | some (.error cause) => do
      Logged.warn (.skippedBody id media cause)
      bodyType s id rest

/-- In the order in which they are looked for. -/
def successCodes : List String := ["200", "201", "202", "204"]

def declaredSuccess? (e : Endpoint) : Option (String × OrRef Response) :=
  successCodes.findSome? fun code => (e.responses.get? code).map (code, ·)

def responseType (s : Source) (id : String) (e : Endpoint) : Logged ResponseType :=
  match declaredSuccess? e with
  | none => return .body .any
  | some (code, declared) =>
    match s.document.response? declared with
    | none => do
      Logged.warn (.unresolvedResponse id code)
      return .body .any
    | some response =>
      match response.content with
      | some ((_, some schema) :: _) =>
        match referredType? s schema with
        | none => return .body .any
        | some (.ok t) => return .body t
        | some (.error cause) => do
          Logged.warn (.untypedResponse id code cause)
          return .body .any
      | _ => return .empty

/-! ## The walk -/

/-- Function names that each package already uses. -/
def reservedFunctions : List String := ["options", "r#mod"]

/-- The function names given so far, with their packages. -/
abbrev GivenNames := List (String × String)

def usedIn (given : GivenNames) (package : String) : List String :=
  (given.filter (·.1 == package)).map (·.2) ++ reservedFunctions

def functionName (given : GivenNames) (id package : String) : Logged String :=
  let base := Ident.bindingName id
  let name := (Ident.reserve base (usedIn given package)).1
  ⟨name, if name = base then [] else [.renamedFunction id package name]⟩

structure Entry where
  path : String
  item : PathItem
  method : Method
  endpoint : Endpoint

/-- The declared endpoints by path, then by method. -/
def entries (d : Document) : List Entry :=
  d.paths.entries.flatMap fun (path, item) =>
    Method.all.filterMap fun method => (endpoint? item method).map (⟨path, item, method, ·⟩)

def Entry.id (n : Naming) (e : Entry) : String :=
  n.operationId e.method e.path e.endpoint.operationId

def Entry.owner? (n : Naming) (e : Entry) : Option Owner :=
  n.owner? (e.id n) e.path ⟨e.endpoint.service, e.endpoint.tags⟩

def operation (s : Source) (given : GivenNames) (e : Entry) (owner : Owner) : Logged Operation := do
  let id := e.id s.naming
  let function ← functionName given id owner.package
  let ps ← parameters s e.item e.endpoint
  return {
    id
    method := e.method
    path := e.path
    pathParams := ← pathParams s id e.path ps
    queryParams := ← queryParams s ps
    body := ← match e.endpoint.requestBody with
      | some body => bodyType s id body.content
      | none => pure none
    response := ← responseType s id e.endpoint
    owner
    function
    summary := e.endpoint.summary
    description := e.endpoint.description }

def walk (s : Source) (given : GivenNames) : List Entry → Logged Api
  | [] => return ⟨[], []⟩
  | e :: rest => do
    match e.owner? s.naming with
    | none => do
      let id := e.id s.naming
      Logged.warn (.unownedOperation id e.method e.path)
      let api ← walk s given rest
      return { api with excluded := ⟨e.method, e.path, id⟩ :: api.excluded }
    | some owner => do
      let op ← operation s given e owner
      let api ← walk s ((owner.package, op.function) :: given) rest
      return { api with operations := op :: api.operations }

def api (s : Source) : Logged Api :=
  walk s [] (entries s.document)

end ClientGen.Extract
