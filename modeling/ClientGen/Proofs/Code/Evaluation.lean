import ClientGen.Code.Render
import ClientGen.Proofs.Template.Format
import ClientGen.Proofs.Text.Literals

/-! # Running generated functions

What small functions do that bind names, look into options, fill texts into formats and collect
texts in a list. Numbers and booleans stay abstract but for how they are printed. Code of other
forms has no meaning here.
-/
namespace ClientGen.Code

/-- Values, with `α` for numbers and booleans. -/
inductive Value (α : Type)
  | text (s : String)
  | plain (x : α)
  /-- What a condition comes to. -/
  | truth (b : Bool)
  | list (items : List (Value α))
  | option (v : Option (Value α))
  | record (fields : List (String × Value α))

/-- What generated functions rely on without declaring it. -/
structure Runtime (α : Type) where
  /-- The path of the function that encodes a text. -/
  encoder : String
  encode : String → String
  display : α → String

/-- The fields of `self`, and the bindings, the innermost first. -/
structure Env (α : Type) where
  fields : List (String × Value α)
  bindings : List (String × Value α)

variable {α : Type}

/-! ## Places -/

/-- The field that a place names below `self`. -/
def fieldOfSelf? (place : String) : Option String :=
  ("self.".toList.isPrefixOf? place.toList).map String.ofList

/-- The first entry of a name, changed. -/
def setFirst (name : String) (v : Value α) :
    List (String × Value α) → Option (List (String × Value α))
  | [] => none
  | (n,w) :: rest =>
    if n = name then some ((n,v) :: rest) else (setFirst name v rest).map ((n,w) :: ·)

namespace Env

def read? (env : Env α) (place : String) : Option (Value α) :=
  if place = "self" then some (.record env.fields)
  else match fieldOfSelf? place with
    | some field => env.fields.lookup field
    | none => env.bindings.lookup place

def write? (env : Env α) (place : String) (v : Value α) : Option (Env α) :=
  match fieldOfSelf? place with
  | some field => (setFirst field v env.fields).map fun fields => { env with fields }
  | none => (setFirst place v env.bindings).map fun bindings => { env with bindings }

def bind (env : Env α) (name : String) (v : Value α) : Env α :=
  { env with bindings := (name,v) :: env.bindings }

/-- At the end of a block its own bindings are gone, and outer ones keep what they were set to. -/
def leave (outer : Env α) (env : Env α) : Env α :=
  { env with bindings := env.bindings.drop (env.bindings.length - outer.bindings.length) }

end Env

/-! ## Functions and methods -/

def Value.text? : Value α → Option String
  | text s => some s
  | _ => none

/-- The value as a hole of a format shows it. -/
def Value.display? (rt : Runtime α) : Value α → Option String
  | text s => some s
  | plain x => some (rt.display x)
  | _ => none

def Runtime.call? (rt : Runtime α) (callee : String) : List (Value α) → Option (Value α)
  | [] =>
    if callee = "String::new" then some (.text "")
    else if callee = "Vec::new" then some (.list [])
    else none
  | [v] =>
    if callee = "Some" then some (.option (some v))
    else if callee = rt.encoder then v.text?.map fun s => .text (rt.encode s)
    else none
  | _ => none

def Value.call? (receiver : Value α) (method : String) : List (Value α) → Option (Value α)
  | [] =>
    match receiver with
    | .list items => if method = "is_empty" then some (.truth items.isEmpty) else none
    | .text s => if method = "into" then some (.text s) else none
    | _ => none
  | [.text s] =>
    match receiver with
    | .list items =>
      if method = "join" then (items.mapM Value.text?).map fun ts => .text (s.intercalate ts)
      else none
    | _ => none
  | _ => none

/-! ## Expressions and statements -/

/-- What the text between the quotes of a literal stands for. -/
def literal? (text : String) : Option String :=
  Text.unquote? (Expr.str text).render

mutual

def Expr.eval? (rt : Runtime α) (env : Env α) : Expr → Option (Value α)
  | .path place => env.read? place
  | .str text => (literal? text).map .text
  | .call callee args => (evalAll? rt env args).bind (rt.call? callee)
  | .method receiver name args =>
    (receiver.eval? rt env).bind fun v => (evalAll? rt env args).bind (v.call? name)
  | .bang name (.str template :: args) =>
    if name = "format" then
      (literal? template).bind fun template =>
        (evalAll? rt env args).bind fun values =>
          (values.mapM (Value.display? rt)).bind fun texts =>
            (FormatString.format template texts).map .text
    else none
  | .ref e => e.eval? rt env
  | _ => none

def evalAll? (rt : Runtime α) (env : Env α) : List Expr → Option (List (Value α))
  | [] => some []
  | e :: es => (e.eval? rt env).bind fun v => (evalAll? rt env es).map (v :: ·)

end

/-- The name that a pattern binds to what an option holds. -/
def boundBySome? (pattern : String) : Option String :=
  match "Some(".toList.isPrefixOf? pattern.toList with
  | some rest => if rest.getLast? = some ')' then some (String.ofList rest.dropLast) else none
  | none => none

/-- How a block goes on: the value that it ends with, if it has come to its end. -/
abbrev Outcome (α : Type) := Env α × Option (Value α)

mutual

def Stmt.run? (rt : Runtime α) (env : Env α) : Stmt → Option (Outcome α)
  | .bind name _ _ value => (value.eval? rt env).map fun v => (env.bind name v,none)
  | .assign place value =>
    (value.eval? rt env).bind fun v => (env.write? place v).map (·,none)
  | .run (.method (.path place) method [item]) =>
    if method = "push" then
      (item.eval? rt env).bind fun v =>
        match env.read? place with
        | some (.list items) => (env.write? place (.list (items ++ [v]))).map (·,none)
        | _ => none
    else none
  | .result e => (e.eval? rt env).map fun v => (env,some v)
  | .ifLet pattern value body =>
    match boundBySome? pattern, value.eval? rt env with
    | some name, some (.option (some v)) =>
      (runBlock? rt (env.bind name v) body).map fun (after,result) => (env.leave after,result)
    | some _, some (.option none) => some (env,none)
    | _, _ => none
  | .ifElse cond body otherwise =>
    match cond.eval? rt env with
    | some (.truth true) =>
      (runBlock? rt env body).map fun (after,result) => (env.leave after,result)
    | some (.truth false) =>
      (runBlock? rt env otherwise).map fun (after,result) => (env.leave after,result)
    | _ => none
  | _ => none

/-- A block ends with its value, so that nothing can follow. -/
def runBlock? (rt : Runtime α) (env : Env α) : List Stmt → Option (Outcome α)
  | [] => some (env,none)
  | s :: rest =>
    match s.run? rt env with
    | some (after,none) => runBlock? rt after rest
    | some (after,some v) => if rest.isEmpty then some (after,some v) else none
    | none => none

end

/-- What a method returns for a `self` with these fields. -/
def Function.call? (rt : Runtime α) (f : Function) (fields : List (String × Value α))
    (args : List (Value α)) : Option (Value α) :=
  if f.params.length = args.length then
    (runBlock? rt ⟨fields,(f.params.map (·.name)).zip args⟩ f.body).bind (·.2)
  else none

end ClientGen.Code
