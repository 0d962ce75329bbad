import ClientGen.Code
import ClientGen.Text.Quoted

/-! # Code as text

The one place that turns code trees into text. The text is complete but not laid out: no line is
indented, and pieces that belong on lines of their own end in a line feed.
-/
namespace ClientGen.Code

def commas (parts : List String) : String :=
  ", ".intercalate parts

def angled (parts : List String) : String :=
  "<" ++ commas parts ++ ">"

def called (args : List String) : String :=
  "(" ++ commas args ++ ")"

/-- A body that starts on the line after its opening brace. -/
def braced (body : String) : String :=
  "\x7b\n" ++ body ++ "\x7d"

/-! ## Types -/

mutual

def Ty.render : Ty → String
  | .path name => name
  | .model none name => name
  | .model (some scope) name => scope ++ "::" ++ name
  | .option t => "Option<" ++ t.render ++ ">"
  | .vec t => "Vec<" ++ t.render ++ ">"
  | .box t => "Box<" ++ t.render ++ ">"
  | .map t => "std::collections::HashMap<String, " ++ t.render ++ ">"
  | .ref none t => "&" ++ t.render
  | .ref (some lifetime) t => "&" ++ lifetime ++ " " ++ t.render
  | .mutableRef t => "&mut " ++ t.render
  | .into t => "impl Into<" ++ t.render ++ ">"
  | .generic base args => base ++ angled (renderTypes args)

def renderTypes : List Ty → List String
  | [] => []
  | t :: ts => t.render :: renderTypes ts

end

/-! ## Expressions -/

/-- A field whose value is the binding of its own name is written once. -/
def renderField (name : String) (value : Expr) (rendered : String) : String :=
  match value with
  | .path p => if p = name then name else name ++ ": " ++ rendered
  | _ => name ++ ": " ++ rendered

mutual

def Expr.render : Expr → String
  | .path name => name
  | .str text => Text.quote text
  | .call callee args => callee ++ called (renderExprs args)
  | .method receiver name args => receiver.render ++ "." ++ name ++ called (renderExprs args)
  | .bang name args => name ++ "!" ++ called (renderExprs args)
  | .ref e => "&" ++ e.render
  | .await e => e.render ++ ".await"
  | .record name fields => name ++ " \x7b " ++ commas (renderFields fields) ++ " \x7d"
  | .cases subject arms => "match " ++ subject.render ++ " " ++ braced (renderArms arms)
  | .verbatim code => code

def renderExprs : List Expr → List String
  | [] => []
  | e :: es => e.render :: renderExprs es

def renderFields : List (String × Expr) → List String
  | [] => []
  | (name, e) :: fs => renderField name e e.render :: renderFields fs

def renderArms : List (String × Expr) → String
  | [] => ""
  | (pattern, e) :: arms => pattern ++ " => " ++ e.render ++ ",\n" ++ renderArms arms

end

/-! ## Statements -/

def annotation : Option Ty → String
  | none => ""
  | some t => ": " ++ t.render

mutual

def Stmt.render : Stmt → String
  | .bind name isMutable type value =>
    "let " ++ (if isMutable then "mut " else "") ++ name ++ annotation type ++ " = " ++
      value.render ++ ";\n"
  | .assign place value => place ++ " = " ++ value.render ++ ";\n"
  | .run e => e.render ++ ";\n"
  | .result e => e.render ++ "\n"
  | .ifLet pattern value body =>
    "if let " ++ pattern ++ " = " ++ value.render ++ " " ++ braced (renderBlock body) ++ "\n"
  | .ifThen cond body => "if " ++ cond.render ++ " " ++ braced (renderBlock body) ++ "\n"
  | .ifElse cond body otherwise =>
    "if " ++ cond.render ++ " " ++ braced (renderBlock body) ++ " else " ++
      braced (renderBlock otherwise) ++ "\n"
  | .verbatim code => code ++ "\n"

def renderBlock : List Stmt → String
  | [] => ""
  | s :: rest => s.render ++ renderBlock rest

end

/-! ## Items -/

def renderDoc (marker line : String) : String :=
  if line.isEmpty then marker ++ "\n" else marker ++ " " ++ line ++ "\n"

def renderDocs (lines : List String) : String :=
  String.join (lines.map (renderDoc "///"))

mutual

def Meta.render : Meta → String
  | .word text => text
  | .setting name value => name ++ " = " ++ value.render
  | .list name items => name ++ called (renderMetas items)

def renderMetas : List Meta → List String
  | [] => []
  | m :: ms => m.render :: renderMetas ms

end

def renderAttrs (attrs : List Meta) : String :=
  String.join (attrs.map fun a => "#[" ++ a.render ++ "]\n")

def renderLifetimes (lifetimes : List String) : String :=
  if lifetimes.isEmpty then "" else angled lifetimes

def visibility (isPublic : Bool) : String :=
  if isPublic then "pub " else ""

def Field.render (f : Field) : String :=
  renderDocs f.docs ++ renderAttrs f.attrs ++ visibility f.isPublic ++ f.name ++ ": " ++
    f.type.render ++ ",\n"

def StructBody.render : StructBody → String
  | fields fs => " " ++ braced (String.join (fs.map Field.render)) ++ "\n"
  | newtype t => "(pub " ++ t.render ++ ");\n"
  | unit => ";\n"

def Struct.render (s : Struct) : String :=
  renderDocs s.docs ++ renderAttrs s.attrs ++ "pub struct " ++ s.name ++
    renderLifetimes s.lifetimes ++ s.body.render

def Variant.render (v : Variant) : String :=
  let payload := (v.payload.map fun t => "(" ++ t.render ++ ")").getD ""
  renderDocs v.docs ++ renderAttrs v.attrs ++ v.name ++ payload ++ ",\n"

def Enum.render (e : Enum) : String :=
  renderDocs e.docs ++ renderAttrs e.attrs ++ "pub enum " ++ e.name ++ " " ++
    braced (String.join (e.variants.map Variant.render)) ++ "\n"

def Alias.render (a : Alias) : String :=
  renderDocs a.docs ++ "pub type " ++ a.name ++ " = " ++ a.type.render ++ ";\n"

def Const.render (c : Const) : String :=
  renderDocs c.docs ++ "pub const " ++ c.name ++ ": " ++ c.type.render ++ " = " ++
    c.value.render ++ ";\n"

def Receiver.render : Receiver → String
  | ref => "&self"
  | mutable => "mut self"

def Param.render (p : Param) : String :=
  p.name ++ ": " ++ p.type.render

def Function.render (f : Function) : String :=
  let receiver := (f.receiver.map Receiver.render).toList
  let result := (f.result.map fun t => " -> " ++ t.render).getD ""
  renderDocs f.docs ++ renderAttrs f.attrs ++ visibility f.isPublic ++
    (if f.isAsync then "async " else "") ++ "fn " ++ f.name ++
    called (receiver ++ f.params.map Param.render) ++ result ++ " " ++
    braced (renderBlock f.body) ++ "\n"

def Member.render : Member → String
  | const c => c.render
  | function f => f.render

def Impl.render (i : Impl) : String :=
  let trait := (i.trait.map fun t => t.render ++ " for ").getD ""
  "impl" ++ renderLifetimes i.lifetimes ++ " " ++ trait ++ i.target.render ++ " " ++
    braced ("\n".intercalate (i.members.map Member.render)) ++ "\n"

/-- A single name needs no braces. -/
def Import.render : Import → String
  | path text => text
  | names scope [name] => scope ++ "::" ++ name
  | names scope ns => scope ++ "::\x7b" ++ commas ns ++ "\x7d"

def Item.render : Item → String
  | .use isPublic what => visibility isPublic ++ "use " ++ what.render ++ ";\n"
  | .mod isPublic name => visibility isPublic ++ "mod " ++ name ++ ";\n"
  | .struct s => s.render
  | .enum e => e.render
  | .alias a => a.render
  | .impl i => i.render
  | .function f => f.render

/-- The docs, then the items, a blank line after each. -/
def Module.render (m : Module) : String :=
  let docs := String.join (m.docs.map (renderDoc "//!"))
  (if m.docs.isEmpty then "" else docs ++ "\n") ++
    String.join (m.items.map fun i => i.render ++ "\n")

end ClientGen.Code
