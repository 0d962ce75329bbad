import ClientGen.RouteTree
import ClientGen.Sdk.Calls

/-! # Navigation

A struct for each node of the route tree. A literal segment is a method without arguments, a
parameter segment a method that captures a value, and an operation a method that passes the captured
values on to its function. Navigation starts at the root, or at a first segment that is named.
-/
namespace ClientGen.Sdk.Navigation
open Code (Expr Item)

def entryName : String := "ApiBuilder"

/-- A value that a struct carries for a parameter segment on its way. -/
structure Captured where
  field : String
  scalar : Scalar
  node : Nat
  deriving DecidableEq, Repr

/-- The tree, where navigation starts in it, and the struct of each node from there on. -/
structure Plan where
  tree : RouteTree
  start : Nat
  structs : List (Nat × String)
  deriving Repr

/-! ## Planning -/

/-- The named first segment if some path has it, else the root. -/
def startNode (t : RouteTree) (rootSegment : String) : Nat :=
  if rootSegment.isEmpty then RouteTree.root
  else (t.find? [rootSegment]).getD RouteTree.root

/-- The nodes on the way from `start` down to `id`, without `start`. -/
def below (t : RouteTree) (start id : Nat) : List Nat :=
  (t.lineage id).drop (t.depth start)

def label : Segment → String
  | .root => ""
  | .literal text => Ident.variantName text
  | .param name _ => Ident.variantName name

/-- Struct names spell out the way to their node. -/
def structBase (t : RouteTree) (start id : Nat) : String :=
  String.join ((below t start id).map fun n => label (t.segmentOf n)) ++ "Builder"

/-- All nodes below `start`, each after its parent. -/
def descendants (t : RouteTree) (start : Nat) : List Nat :=
  (t.walk start).flatMap fun id => (t.children id).values

def structsOf (t : RouteTree) (start : Nat) : List (Nat × String) :=
  let ids := descendants t start
  let names := Ident.reserveAll Ident.reserveType [entryName] (ids.map (structBase t start))
  (start, entryName) :: ids.zip names

def Plan.of (t : RouteTree) (rootSegment : String) : Plan :=
  let start := startNode t rootSegment
  ⟨t, start, structsOf t start⟩

def capture (t : RouteTree) (captured : List Captured) (id : Nat) : List Captured :=
  match t.segmentOf id with
  | .param name type =>
    let field := (Ident.reserve (Ident.bindingName name) ("client" :: captured.map (·.field))).1
    captured ++ [⟨field, type.scalar, id⟩]
  | _ => captured

namespace Plan

def structName (p : Plan) (id : Nat) : String :=
  (p.structs.lookup id).getD entryName

/-- What the struct of a node carries, the outermost first. -/
def captured (p : Plan) (id : Nat) : List Captured :=
  (below p.tree p.start id).foldl (capture p.tree) []

/-- The nodes with a struct, in the order of the file. -/
def order (p : Plan) : List Nat :=
  p.tree.walk p.start

end Plan

/-! ## Structs -/

def clientType (paths : ModulePaths) : Code.Ty :=
  .ref (some "'a") (.path (paths.runtime "Client"))

def privateField (name : String) (type : Code.Ty) : Code.Field :=
  ⟨[], [], false, name, type⟩

def routeDoc (p : Plan) (id : Nat) : String :=
  "`" ++ p.tree.template id ++ "`"

def nodeStruct (p : Plan) (paths : ModulePaths) (id : Nat) : Code.Struct where
  docs := if id = p.start then ["Entry point of the API navigation."] else [routeDoc p id]
  attrs := [.list "derive" [.word "Clone"]]
  name := p.structName id
  lifetimes := ["'a"]
  body := .fields <|
    privateField "client" (clientType paths) ::
      (p.captured id).map fun c => privateField c.field (ownedType c.scalar)

/-! ## Methods to children -/

def self (field : String) : Expr := .path ("self." ++ field)

/-- A captured value for a child's struct. -/
def passedOn (c : Captured) : String × Expr :=
  (c.field, match c.scalar with
    | .text => .method (self c.field) "clone" []
    | _ => self c.field)

/-- The argument that captures a value: its parameter and the value for the struct. -/
def capturing (c : Captured) : Code.Param × (String × Expr) :=
  match c.scalar with
  | .text =>
    (⟨c.field, .into (.path "String")⟩, c.field, .method (.path c.field) "into" [])
  | s => (⟨c.field, ownedType s⟩, c.field, .path c.field)

/-- The value that a node itself captures. -/
def ownCapture? (p : Plan) (id : Nat) : Option Captured :=
  (p.captured id).getLast?.filter (·.node == id)

def methodName : Segment → String
  | .root => "root"
  | .literal text => Ident.bindingName text
  | .param name _ => Ident.bindingName name

def childMethod (p : Plan) (parent child : Nat) : Code.Function :=
  let own := ((ownCapture? p child).map capturing).toList
  { Code.Function.public (methodName (p.tree.segmentOf child)) with
    docs := [routeDoc p child]
    receiver := some .ref
    params := own.map (·.1)
    result := some (.generic (p.structName child) [.path "'a"])
    body := [.result (.record (p.structName child)
      (("client", self "client") :: (p.captured parent).map passedOn ++ own.map (·.2)))] }

/-! ## Methods of operations -/

/-- For each placeholder of a path, the node of the segment that it begins in; the second and later
placeholders of one segment have none. -/
def owners (t : RouteTree) (op : Operation) (id : Nat) : List (Option Nat) :=
  ((Template.segments op.path).zip (t.lineage id)).flatMap fun (segment, node) =>
    (Template.placeholders segment).zipIdx.map fun (_, i) => if i = 0 then some node else none

/-- A captured value as an argument of the given type, if it can be one. -/
def capturedArgument? (scalar : Scalar) (c : Captured) : Option Expr :=
  if c.scalar = scalar then
    match scalar with
    | .text => some (.ref (self c.field))
    | _ => some (self c.field)
  else if scalar = .text then some (.ref (.method (self c.field) "to_string" []))
  else none

/-- What is passed for an argument, and the parameter that it comes from if it is not captured. -/
def pathArgument (captured : List Captured) (a : PathArgument) (owner : Option Nat) :
    Expr × Option Code.Param :=
  match owner.bind fun n => (captured.find? (·.node == n)).bind (capturedArgument? a.scalar) with
  | some e => (e, none)
  | none => (.path a.name, some a.param)

def pathArguments (p : Plan) (op : Operation) (s : Signature) (id : Nat) :
    List (Expr × Option Code.Param) :=
  s.path.zipIdx.map fun (a, k) =>
    pathArgument (p.captured id) a ((owners p.tree op id)[k]?.getD none)

def bodyArgument (s : Signature) : List (Expr × Option Code.Param) :=
  (s.body.map fun b => (.path b.name, some b.param)).toList

def optionsArgument (package : String) (op : Operation) : List (Expr × Option Code.Param) :=
  if op.hasQuery then
    [(.path "options", some ⟨"options", .ref none (.path (package ++ "::Options"))⟩)]
  else []

def operationDocs (op : Operation) : List String :=
  let lines := summaryDocs op.summary op.description
  (if lines.isEmpty then [] else lines ++ [""]) ++ [Calls.requestLine op]

def operationMethod (p : Plan) (scope : ModelScope) (paths : ModulePaths) (id : Nat)
    (op : Operation) : Code.Function :=
  let s := Signature.ofOperation scope paths op
  let package := paths.services ++ "::" ++ packageModule op.package
  let arguments := pathArguments p op s id ++ bodyArgument s ++ optionsArgument package op
  { Code.Function.public op.function with
    docs := operationDocs op
    isAsync := true
    receiver := some .ref
    params := arguments.filterMap (·.2)
    result := some s.result
    body := [.result (.await (.call (package ++ "::" ++ op.function)
      (self "client" :: arguments.map (·.1))))] }

/-! ## Implementations -/

def newMethod (paths : ModulePaths) : Code.Function :=
  { Code.Function.public "new" with
    params := [⟨"client", clientType paths⟩]
    result := some (.path "Self")
    body := [.result (.record "Self" [("client", .path "client")])] }

/-- Functions under names that differ from each other and from those in use. -/
def distinctlyNamed (used : List String) (fs : List Code.Function) : List Code.Function :=
  fs.zipWith (fun f name => { f with name })
    (Ident.reserveAll Ident.reserve used (fs.map (·.name)))

def nodeImpl (p : Plan) (scope : ModelScope) (paths : ModulePaths) (ops : List Operation)
    (id : Nat) : Code.Impl :=
  let given := if id = p.start then [newMethod paths] else []
  let onward := (p.tree.children id).values.map (childMethod p id)
  let here := ((p.tree.operationsAt id).filterMap (ops[·]?)).map (operationMethod p scope paths id)
  { lifetimes := ["'a"]
    trait := none
    target := .generic (p.structName id) [.path "'a"]
    members := (given ++ distinctlyNamed (given.map (·.name)) (onward ++ here)).map .function }

/-! ## The file -/

/-- Operations that no node from the start on holds. -/
def outside (p : Plan) (ops : List Operation) : List Operation :=
  let inside := p.order.flatMap p.tree.operationsAt
  (ops.zipIdx.filter fun (_, i) => !inside.contains i).map (·.1)

def moduleOf (models : List Model) (ops : List Operation) (rootSegment : String)
    (paths : ModulePaths) : Logged Code.Module := do
  let p := Plan.of (.build ops) rootSegment
  let scope := ModelScope.ofModels models (some paths.models)
  for op in outside p ops do
    Logged.warn (.outsideNavigation op.id op.path rootSegment)
  return {
    docs := ["Fluent navigation over the API path structure.", "",
      "Start from [`" ++ entryName ++ "::new`] and follow the URL segments."]
    items := p.order.flatMap fun id =>
      [.struct (nodeStruct p paths id), .impl (nodeImpl p scope paths ops id)] }

end ClientGen.Sdk.Navigation
