import ClientGen.Code.Words
import ClientGen.Proofs.Code.Mentions

/-! # Built-in types in generated code

Generated code names a few types of the prelude without a path. Such a name means another type in a
module that declares or imports a model of this name.
-/
namespace ClientGen.Code

/-- The types of the prelude that generated code names. -/
def builtinTypes : List String := ["Box","Option","String","Vec"]

/-- What a path begins with, if that is a built-in type. -/
def builtinsOf (path : String) : List String :=
  match splitDoubleColons [] path.toList with
  | [] => []
  | first :: _ => builtinTypes.filter (·.toList == first)

theorem builtinsOf_self (name : String) : builtinsOf ("Self::" ++ name) = [] := by
  simp only [builtinsOf, String.toList_append]
  rfl

/-! ## Types -/

mutual

/-- A table is one with text keys, which are written with it. -/
def Ty.builtins : Ty → List String
  | .path name => builtinsOf name
  | .model _ _ => []
  | .option t => "Option" :: t.builtins
  | .vec t => "Vec" :: t.builtins
  | .box t => "Box" :: t.builtins
  | .map t => "String" :: t.builtins
  | .ref _ t => t.builtins
  | .mutableRef t => t.builtins
  | .into t => t.builtins
  | .generic base args => builtinsOf base ++ Ty.builtinsAll args

def Ty.builtinsAll : List Ty → List String
  | [] => []
  | t :: ts => t.builtins ++ Ty.builtinsAll ts

end

/-! ## Expressions and attributes -/

def Word.builtins : Word → List String
  | .path text => builtinsOf text
  | .place text => builtinsOf text
  | _ => []

def Expr.builtins (e : Expr) : List String :=
  e.words.flatMap Word.builtins

mutual

def Stmt.builtins : Stmt → List String
  | .bind _ _ type value => type.toList.flatMap Ty.builtins ++ value.builtins
  | .assign _ value => value.builtins
  | .run e => e.builtins
  | .result e => e.builtins
  | .ifLet _ value body => value.builtins ++ Stmt.builtinsAll body
  | .ifThen cond body => cond.builtins ++ Stmt.builtinsAll body
  | .ifElse cond body otherwise =>
    cond.builtins ++ Stmt.builtinsAll body ++ Stmt.builtinsAll otherwise
  | .verbatim _ => []

def Stmt.builtinsAll : List Stmt → List String
  | [] => []
  | s :: ss => s.builtins ++ Stmt.builtinsAll ss

end

mutual

/-- Of the texts in attributes, one is a path: the test that leaves a field out. -/
def Meta.builtins : Meta → List String
  | .word _ => []
  | .setting "skip_serializing_if" (.str path) => builtinsOf path
  | .setting _ _ => []
  | .list _ items => Meta.builtinsAll items

def Meta.builtinsAll : List Meta → List String
  | [] => []
  | m :: ms => m.builtins ++ Meta.builtinsAll ms

end

/-! ## Items -/

def Field.builtins (f : Field) : List String :=
  f.attrs.flatMap Meta.builtins ++ f.type.builtins

def StructBody.builtins : StructBody → List String
  | .fields fs => fs.flatMap Field.builtins
  | .newtype t => t.builtins
  | .unit => []

def Variant.builtins (v : Variant) : List String :=
  v.attrs.flatMap Meta.builtins ++ v.payload.toList.flatMap Ty.builtins

def Function.builtins (f : Function) : List String :=
  f.attrs.flatMap Meta.builtins ++ f.params.flatMap (·.type.builtins) ++
    f.result.toList.flatMap Ty.builtins ++ Stmt.builtinsAll f.body

def Member.builtins : Member → List String
  | .const c => c.type.builtins ++ c.value.builtins
  | .function f => f.builtins

def Item.builtins : Item → List String
  | .use _ _ => []
  | .mod _ _ => []
  | .struct s => s.attrs.flatMap Meta.builtins ++ s.body.builtins
  | .enum e => e.attrs.flatMap Meta.builtins ++ e.variants.flatMap Variant.builtins
  | .alias a => a.type.builtins
  | .impl i => i.trait.toList.flatMap Ty.builtins ++ i.target.builtins ++
    i.members.flatMap Member.builtins
  | .function f => f.builtins

/-- The built-in types that a module names without a path. -/
def Module.builtins (m : Module) : List String :=
  m.items.flatMap Item.builtins

/-- No model of the module has the name of a built-in type that the module names. -/
def Module.Uncaptured (m : Module) : Prop :=
  ∀ b ∈ m.builtins, ¬ m.Declares b ∧ b ∉ m.imported

end ClientGen.Code

namespace ClientGen
open Code (Ty)

/-- The built-in types that a type is written with. -/
def TypeRef.builtins : TypeRef → List String
  | .text => ["String"]
  | .array item => "Vec" :: item.builtins
  | .map value => "String" :: value.builtins
  | _ => []

theorem Sdk.ModelScope.builtins_type (s : ModelScope) (t : TypeRef) :
    (s.type t).builtins = t.builtins := by
  induction t with
  | named n =>
    simp only [ModelScope.type]
    split <;> rfl
  | array t ih => simp only [ModelScope.type, Ty.builtins, TypeRef.builtins, ih]
  | map t ih => simp only [ModelScope.type, Ty.builtins, TypeRef.builtins, ih]
  | _ => rfl

end ClientGen
