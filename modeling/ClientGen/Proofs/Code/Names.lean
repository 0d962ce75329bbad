import ClientGen.Proofs.Code.Scopes
import ClientGen.Proofs.Ident.Legal

/-! # Declared names

The names that generated code gives to something of its own: to types and modules, fields and
variants, constants, functions and parameters.
-/
namespace ClientGen.Code

def Member.declaredNames : Member → List String
  | .const c => [c.name]
  | .function f => f.name :: f.paramNames

def Item.declaredNames : Item → List String
  | .use _ _ => []
  | .mod _ name => [name]
  | .struct s => s.name :: s.fieldNames
  | .enum e => e.name :: e.variantNames
  | .alias a => [a.name]
  | .impl i => i.members.flatMap Member.declaredNames
  | .function f => f.name :: f.paramNames

def Module.declaredNames (m : Module) : List String :=
  m.items.flatMap Item.declaredNames

/-- All names that the item gives can be declared. -/
def Item.Declarable (i : Item) : Prop :=
  ∀ n ∈ i.declaredNames, Ident.Declarable n

/-- All names that the member gives can be declared. -/
def Member.Declarable (m : Member) : Prop :=
  ∀ n ∈ m.declaredNames, Ident.Declarable n

theorem Item.declarable_impl {i : Impl} (h : ∀ m ∈ i.members, m.Declarable) :
    (Item.impl i).Declarable := by
  intro n hn
  obtain ⟨m,hm,hn⟩ := List.mem_flatMap.mp hn
  exact h m hm n hn

end ClientGen.Code
