import ClientGen.Sdk.TypeUse

/-! # What generated code mentions

The types written in a piece of generated code, and the data models among them. A module declares,
imports and exports names.
-/
namespace ClientGen.Code

mutual

/-- The models anywhere in a type, each with the scope that it is written with. -/
def Ty.models : Ty → List (Option String × String)
  | .path _ => []
  | .model scope name => [(scope,name)]
  | .option t => t.models
  | .vec t => t.models
  | .box t => t.models
  | .map t => t.models
  | .ref _ t => t.models
  | .mutableRef t => t.models
  | .into t => t.models
  | .generic _ args => Ty.modelsAll args

def Ty.modelsAll : List Ty → List (Option String × String)
  | [] => []
  | t :: ts => t.models ++ Ty.modelsAll ts

end

theorem Ty.modelsAll_eq_flatMap (ts : List Ty) : Ty.modelsAll ts = ts.flatMap Ty.models := by
  induction ts with
  | nil => rfl
  | cons t ts ih => rw [Ty.modelsAll, ih, List.flatMap_cons]

mutual

def Stmt.types : Stmt → List Ty
  | .bind _ _ type _ => type.toList
  | .assign _ _ => []
  | .run _ => []
  | .result _ => []
  | .ifLet _ _ body => Stmt.typesAll body
  | .ifThen _ body => Stmt.typesAll body
  | .ifElse _ body otherwise => Stmt.typesAll body ++ Stmt.typesAll otherwise
  | .verbatim _ => []

def Stmt.typesAll : List Stmt → List Ty
  | [] => []
  | s :: ss => s.types ++ Stmt.typesAll ss

end

theorem Stmt.typesAll_eq_flatMap (ss : List Stmt) : Stmt.typesAll ss = ss.flatMap Stmt.types := by
  induction ss with
  | nil => rfl
  | cons s ss ih => rw [Stmt.typesAll, ih, List.flatMap_cons]

def Function.types (f : Function) : List Ty :=
  f.params.map (·.type) ++ f.result.toList ++ Stmt.typesAll f.body

def Member.types : Member → List Ty
  | .const c => [c.type]
  | .function f => f.types

def Impl.types (i : Impl) : List Ty :=
  i.trait.toList ++ i.target :: i.members.flatMap Member.types

def StructBody.types : StructBody → List Ty
  | .fields fs => fs.map (·.type)
  | .newtype t => [t]
  | .unit => []

/-- All types written in an item; those of a declared type are what its values consist of. -/
def Item.types : Item → List Ty
  | .use _ _ => []
  | .mod _ _ => []
  | .struct s => s.body.types
  | .enum e => e.variants.flatMap fun v => v.payload.toList
  | .alias a => [a.type]
  | .impl i => i.types
  | .function f => f.types

/-- The name of the type that an item declares. -/
def Item.declared? : Item → Option String
  | .struct s => some s.name
  | .enum e => some e.name
  | .alias a => some a.name
  | _ => none

def Item.models (i : Item) : List (Option String × String) :=
  i.types.flatMap Ty.models

def Item.imported : Item → List String
  | .use false (.names "super" names) => names
  | _ => []

/-- The names that an item makes public, each with the module that it comes from. -/
def Item.exported : Item → List (String × String)
  | .use true (.names module names) => names.map (module,·)
  | _ => []

namespace Module

def models (m : Module) : List (Option String × String) :=
  m.items.flatMap Item.models

def Declares (m : Module) (name : String) : Prop :=
  ∃ i ∈ m.items, i.declared? = some name

def imported (m : Module) : List String :=
  m.items.flatMap Item.imported

def exported (m : Module) : List (String × String) :=
  m.items.flatMap Item.exported

/-- What a module writes without a scope is its own or imported; what it imports, it writes, and is
not its own. -/
structure Resolved (m : Module) : Prop where
  reaches : ∀ r ∈ m.models, r.1 = none ∧ (m.Declares r.2 ∨ r.2 ∈ m.imported)
  writes : ∀ n ∈ m.imported, (none,n) ∈ m.models
  foreign : ∀ n ∈ m.imported, ¬ m.Declares n

end Module

end ClientGen.Code

namespace ClientGen.Sdk.ModelScope
open Code (Ty)

/-- A type is written with the known models of the type that it stands for, and no others. -/
theorem models_type (s : ModelScope) (t : TypeRef) :
    (s.type t).models = (t.names.filter s.knows).map (s.path,·) := by
  induction t with
  | named m =>
    simp only [ModelScope.type, TypeRef.names]
    split <;> rename_i h <;> simp [h, Ty.models, anyValue]
  | array t ih => simpa [ModelScope.type, TypeRef.names, Ty.models] using ih
  | map t ih => simpa [ModelScope.type, TypeRef.names, Ty.models] using ih
  | _ => simp [ModelScope.type, anyValue, Ty.models, Ty.modelsAll, TypeRef.names]

theorem knows_iff {models : List Model} {path : Option String} {n : String} :
    (ofModels models path).knows n = true ↔ ∃ m ∈ models, m.name = n := by
  simp [knows, ofModels]

end ClientGen.Sdk.ModelScope
