import ClientGen.Sdk.Signature
import ClientGen.Text.Cut
import ClientGen.Warning

/-! # Query options

The options of a package: one optional field for each query parameter that some operation of the
package takes, a setter for each, and the query string of those that are set.
-/
namespace ClientGen.Sdk.QueryOptions
open Code (Expr Stmt Member)

/-! ## Merging -/

/-- A parameter as first declared, with the type that fits all declarations. -/
structure Merged where
  param : QueryParam
  scalar : Scalar
  deriving DecidableEq, Repr

/-- Declarations that differ in type make the parameter text. -/
def addParam (package : String) (merged : Dict Merged) (q : QueryParam) : Logged (Dict Merged) :=
  match merged.get? q.name with
  | none => return merged.insert q.name ⟨q, q.type.scalar⟩
  | some known =>
    if known.scalar = q.type.scalar then return merged
    else do
      Logged.warn (.mixedQueryTypes package q.name)
      return merged.insert q.name { known with scalar := .text }

/-- The query parameters of a package in the order of their names. -/
def merge (package : String) (ops : List Operation) : Logged (List Merged) := do
  return (← (ops.flatMap (·.queryParams)).foldlM (addParam package) .empty).values

/-! ## Code -/

structure QueryOption where
  /-- Of the field. -/
  name : String
  param : QueryParam
  scalar : Scalar

def named (params : List Merged) : List QueryOption :=
  let bases := params.map fun m => Ident.bindingName m.param.name
  let names := Ident.reserveAll Ident.reserve [] bases
  names.zipWith (fun name m => ⟨name, m.param, m.scalar⟩) params

def place (o : QueryOption) : String :=
  "self." ++ o.name

def field (o : QueryOption) : Code.Field where
  docs := docsOf o.param.description
  attrs := []
  isPublic := true
  name := o.name
  type := .option (ownedType o.scalar)

def new : Code.Function :=
  { Code.Function.public "new" with
    result := some (.path "Self")
    body := [.result (.call "Self::default" [])] }

def setter (o : QueryOption) : Code.Function :=
  let (type, value) := match o.scalar with
    | .text => (Code.Ty.into (.path "String"), Expr.method (.path "value") "into" [])
    | s => (ownedType s, .path "value")
  { Code.Function.public ("with_" ++ Ident.unraw o.name) with
    docs := ["Set the `" ++ o.param.name ++ "` query parameter."]
    receiver := some .mutable
    params := [⟨"value", type⟩]
    result := some (.path "Self")
    body := [.assign (place o) (.call "Some" [value]), .result (.path "self")] }

/-- A text as a template that stands for it. -/
def escapeBraces (s : String) : String :=
  Text.replaceChar '\x7d' "\x7d\x7d" (Text.replaceChar '\x7b' "\x7b\x7b" s)

def pushPair (paths : ModulePaths) (o : QueryOption) : Stmt :=
  let value := match o.scalar with
    | .text => Expr.call (paths.runtime "encode_query") [.path "value"]
    | _ => .path "value"
  .ifLet "Some(value)" (.ref (.path (place o)))
    [.run (.method (.path "pairs") "push"
      [.bang "format" [.str (escapeBraces o.param.name ++ "=\x7b\x7d"), value]])]

def joinPairs : Stmt :=
  .ifElse (.method (.path "pairs") "is_empty" [])
    [.result (.call "String::new" [])]
    [.result (.bang "format" [.str "?\x7b\x7d", .method (.path "pairs") "join" [.str "&"]])]

def queryBody (paths : ModulePaths) (os : List QueryOption) : List Stmt :=
  if os.isEmpty then [.result (.call "String::new" [])]
  else
    .bind "pairs" true (some (.vec (.path "String"))) (.call "Vec::new" []) ::
      os.map (pushPair paths) ++ [joinPairs]

def buildQuery (paths : ModulePaths) (os : List QueryOption) : Code.Function :=
  { Code.Function.public "build_query_string" with
    docs := ["Query string for the parameters that are set, with a leading `?`.", "",
      "Returns an empty string when nothing is set."]
    receiver := some .ref
    result := some (.path "String")
    body := queryBody paths os }

def moduleOf (paths : ModulePaths) (package : String) (ops : List Operation) :
    Logged Code.Module := do
  let os := named (← merge package ops)
  return {
    docs := ["Query options for the `" ++ package ++ "` package."]
    items := [
      .struct {
        docs := ["Optional query parameters, all unset by default."]
        attrs := [.list "derive" (["Debug", "Clone", "Default", "PartialEq"].map .word)]
        name := "Options"
        lifetimes := []
        body := .fields (os.map field) },
      .impl {
        lifetimes := []
        trait := none
        target := .path "Options"
        members := (new :: os.map setter ++ [buildQuery paths os]).map .function }] }

end ClientGen.Sdk.QueryOptions
