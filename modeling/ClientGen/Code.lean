/-! # Generated code

Code as a tree, with just the forms that the generated files use. Names stay text until a tree is
rendered; nothing in a tree depends on layout.
-/
namespace ClientGen.Code

inductive Ty
  | path (name : String)
  /-- A data model. The scope is the path of the models module, if written outside of it. -/
  | model (scope : Option String) (name : String)
  | option (t : Ty)
  | vec (t : Ty)
  | box (t : Ty)
  /-- A table with text keys. -/
  | map (t : Ty)
  | ref (lifetime : Option String) (t : Ty)
  | mutableRef (t : Ty)
  /-- Whatever converts into a type. -/
  | into (t : Ty)
  | generic (base : String) (args : List Ty)
  deriving Repr

inductive Expr
  | path (name : String)
  /-- A text, written as a literal. -/
  | str (text : String)
  | call (callee : String) (args : List Expr)
  | method (receiver : Expr) (name : String) (args : List Expr)
  /-- A call of a macro. -/
  | bang (name : String) (args : List Expr)
  | ref (e : Expr)
  | await (e : Expr)
  | record (name : String) (fields : List (String × Expr))
  /-- Patterns and what the subject stands for under each. -/
  | cases (subject : Expr) (arms : List (String × Expr))
  | verbatim (code : String)
  deriving Repr

inductive Stmt
  | bind (name : String) (isMutable : Bool) (type : Option Ty) (value : Expr)
  | assign (place : String) (value : Expr)
  | run (e : Expr)
  /-- The value of the block. -/
  | result (e : Expr)
  | ifLet (pattern : String) (value : Expr) (body : List Stmt)
  | ifThen (cond : Expr) (body : List Stmt)
  | ifElse (cond : Expr) (body : List Stmt) (otherwise : List Stmt)
  | verbatim (code : String)
  deriving Repr

/-- The body of an attribute. -/
inductive Meta
  | word (text : String)
  | setting (name : String) (value : Expr)
  | list (name : String) (items : List Meta)
  deriving Repr

structure Field where
  docs : List String
  attrs : List Meta
  isPublic : Bool
  name : String
  type : Ty
  deriving Repr

inductive StructBody
  | fields (fs : List Field)
  | newtype (t : Ty)
  | unit
  deriving Repr

structure Struct where
  docs : List String
  attrs : List Meta
  name : String
  lifetimes : List String
  body : StructBody
  deriving Repr

structure Variant where
  docs : List String
  attrs : List Meta
  name : String
  payload : Option Ty
  deriving Repr

structure Enum where
  docs : List String
  attrs : List Meta
  name : String
  variants : List Variant
  deriving Repr

structure Alias where
  docs : List String
  name : String
  type : Ty
  deriving Repr

structure Const where
  docs : List String
  name : String
  type : Ty
  value : Expr
  deriving Repr

inductive Receiver
  | ref
  | mutable
  deriving DecidableEq, Repr

structure Param where
  name : String
  type : Ty
  deriving Repr

structure Function where
  docs : List String
  attrs : List Meta
  isPublic : Bool
  isAsync : Bool
  name : String
  receiver : Option Receiver
  params : List Param
  result : Option Ty
  body : List Stmt
  deriving Repr

inductive Member
  | const (c : Const)
  | function (f : Function)
  deriving Repr

/-- Members of a type, or of a type as an instance of a trait. -/
structure Impl where
  lifetimes : List String
  trait : Option Ty
  target : Ty
  members : List Member
  deriving Repr

inductive Import
  | path (text : String)
  | names (scope : String) (names : List String)
  deriving Repr

inductive Item
  | use (isPublic : Bool) (what : Import)
  | mod (isPublic : Bool) (name : String)
  | struct (s : Struct)
  | enum (e : Enum)
  | alias (a : Alias)
  | impl (i : Impl)
  | function (f : Function)
  deriving Repr

structure Module where
  docs : List String
  items : List Item
  deriving Repr

/-- A public function of no arguments. -/
def Function.public (name : String) : Function where
  docs := []
  attrs := []
  isPublic := true
  isAsync := false
  name
  receiver := none
  params := []
  result := none
  body := []

/-- A generated file, its path relative to where its pass puts files. -/
structure File where
  path : String
  module : Module
  deriving Repr

end ClientGen.Code
