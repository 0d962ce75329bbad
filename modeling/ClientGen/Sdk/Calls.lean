import ClientGen.Delivery.Path
import ClientGen.Sdk.QueryOptions

/-! # Calls

One function for each operation, in a directory for each package, beside the query options of the
package and an index.
-/
namespace ClientGen.Sdk.Calls
open Code (Expr Stmt Item Meta)

/-- The key of an argument among the fields of a span, where no keyword can stand. -/
def spanKey (argument : String) : String :=
  let bare := Ident.unraw argument
  if Ident.isKeyword bare then bare ++ "_" else bare

def instrument (op : Operation) (s : Signature) : Meta :=
  let fields := s.path.map fun a => Meta.setting (spanKey a.name) (.verbatim ("%" ++ a.name))
  .list "tracing::instrument" <|
    [.setting "name" (.str op.id), .word "skip_all"] ++
      if fields.isEmpty then [] else [.list "fields" fields]

def params (op : Operation) (s : Signature) (paths : ModulePaths) : List Code.Param :=
  [⟨"client", .ref none (.path (paths.runtime "Client"))⟩] ++ s.path.map PathArgument.param ++
    (s.body.map BodyArgument.param).toList ++
    if op.hasQuery then [⟨"options", .ref none (.path "super::Options")⟩] else []

/-- The path with the arguments in the places of the placeholders. -/
def pathValue (op : Operation) (s : Signature) : Expr :=
  if s.path.isEmpty then .call "String::from" [.str op.path]
  else .bang "format" (.str (Template.holes op.path) :: s.path.map fun a => .path a.name)

def appendQuery : Stmt :=
  .run (.method (.path "path") "push_str"
    [.ref (.method (.path "options") "build_query_string" [])])

def payload (s : Signature) : Expr :=
  match s.body with
  | some body => .call "Some" [.path body.name]
  | none => .verbatim "None::<&()>"

def body (op : Operation) (s : Signature) : List Stmt :=
  [.bind "path" op.hasQuery none (pathValue op s)] ++
    (if op.hasQuery then [appendQuery] else []) ++
    [.result (.await (.method (.path "client") "execute"
      [.str op.method.name, .ref (.path "path"), payload s]))]

def docs (op : Operation) : List String :=
  let lines := summaryDocs op.summary op.description
  if lines.isEmpty then ["Calls `" ++ op.id ++ "`."] else lines

def function (scope : ModelScope) (paths : ModulePaths) (op : Operation) : Code.Function :=
  let s := Signature.ofOperation scope paths op
  { Code.Function.public op.function with
    docs := docs op
    attrs := [instrument op s]
    isAsync := true
    params := params op s paths
    result := some s.result
    body := body op s }

/-- How docs name the request of an operation. -/
def requestLine (op : Operation) : String :=
  "`" ++ op.method.name ++ " " ++ op.path ++ "`"

def moduleOf (scope : ModelScope) (paths : ModulePaths) (op : Operation) : Code.Module where
  docs := [requestLine op]
  items := [.function (function scope paths op)]

/-! ## Packages -/

def indexItems (op : Operation) : List Item :=
  [.mod true op.function, .use true (.names op.function [op.function])]

def index (package : String) (ops : List Operation) : Code.Module where
  docs := ["Operations owned by the `" ++ package ++ "` service package."]
  items :=
    [.mod true "options", .use true (.names "options" ["Options"])] ++ ops.flatMap indexItems

def packageFiles (scope : ModelScope) (paths : ModulePaths) (package : String)
    (ops : List Operation) : Logged (List Code.File) := do
  let directory := Ident.unraw (packageModule package)
  let file (name : String) (m : Code.Module) : Code.File := ⟨Path.join directory name, m⟩
  let options ← QueryOptions.moduleOf paths package ops
  return ops.map (fun op => file (Ident.unraw op.function ++ ".rs") (moduleOf scope paths op)) ++
    [file "options.rs" options, file "mod.rs" (index package ops)]

def root (packages : List String) : Code.Module where
  docs := ["API operations, one module per service package."]
  items := packages.map fun p => .mod true (packageModule p)

def files (models : List Model) (api : Api) (paths : ModulePaths) : Logged (List Code.File) := do
  let scope := ModelScope.ofModels models (some paths.models)
  let own ← api.packages.mapM fun p => packageFiles scope paths p (api.operationsOf p)
  return own.flatten ++ [⟨"mod.rs", root api.packages⟩]

end ClientGen.Sdk.Calls
