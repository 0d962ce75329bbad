import ClientGen.Data.Dict
import ClientGen.Ident
import ClientGen.Model

/-! # Containment

Which models hold which without a collection in between: a record its fields, a union its members,
an alias its target. A value on a way back to the model that holds it is stored out of line, since
the model would have no finite size otherwise.
-/
namespace ClientGen

/-- The types that a model holds inline or in collections of its own. -/
def ModelKind.parts : ModelKind → List TypeRef
  | .record r => r.fields.map (·.type)
  | .union members => members
  | .alias target => [target]
  | .enum _ => []
  | .map _ => []

namespace Containment

def unseen (names seen : List String) : List String :=
  names.filter (! seen.contains ·)

theorem unseen_cons (names seen : List String) (n : String) :
    unseen names (n :: seen) = (unseen names seen).filter (· != n) := by
  simp only [unseen, List.filter_filter]
  congr 1
  funext m
  by_cases h : m = n <;> simp [h]

theorem unseen_cons_lt {names seen : List String} {n : String} (hn : names.contains n = true)
    (hs : seen.contains n = false) :
    (unseen names (n :: seen)).length < (unseen names seen).length := by
  rw [unseen_cons]
  refine List.length_filter_lt_length_iff_exists.2 ⟨n, ?_, by simp⟩
  simp only [unseen, List.mem_filter]
  exact ⟨by simpa using hn, by simpa using hs⟩

/-- What was seen, and all that `next` leads to from the names still to visit. -/
def visit (names : List String) (next : String → List String) (seen : List String) :
    List String → List String
  | [] => seen
  | n :: rest =>
    if names.contains n = true ∧ seen.contains n = false then
      visit names next (n :: seen) (next n ++ rest)
    else visit names next seen rest
termination_by toVisit => ((unseen names seen).length, toVisit.length)
decreasing_by
  · rename_i h
    exact .left _ _ (unseen_cons_lt h.1 h.2)
  · exact .right _ (by simp)

def names (models : List Model) : List String :=
  models.map (·.name)

/-- The models directly inside the model of a name. -/
def heldBy (models : List Model) (name : String) : List String :=
  let held := (models.filter (·.name == name)).flatMap fun m =>
    m.kind.parts.filterMap TypeRef.directName?
  held.filter (names models).contains

def reachable (models : List Model) (name : String) : List String :=
  visit (names models) (heldBy models) [] (heldBy models name)

end Containment

/-- For each model, the models that it holds directly or through others. -/
structure Containment where
  held : Dict (List String)

namespace Containment

def ofModels (models : List Model) : Containment where
  held := .ofList ((names models).map fun n => (n, reachable models n))

/-- Whether a part of this type, stored inline, would put the owner inside itself. -/
def cyclesBack (c : Containment) (part : TypeRef) (owner : String) : Bool :=
  match part.directName? with
  | none => false
  | some n => n == owner || ((c.held.get? n).getD []).contains owner

end Containment

/-! ## Variants of unions -/

structure UnionVariant where
  name : String
  member : TypeRef
  boxed : Bool
  deriving DecidableEq, Repr

namespace UnionVariant

def baseName : TypeRef → String
  | .named n => n
  | .text => "String"
  | .timestamp => "Timestamp"
  | .int32 | .int64 => "Integer"
  | .float32 | .float64 => "Number"
  | .bool => "Boolean"
  | .any => "Value"
  | .array _ => "List"
  | .map _ => "Map"

/-- One variant for each different member. -/
def ofMembers (c : Containment) (union : String) (members : List TypeRef) : List UnionVariant :=
  let members := members.eraseDups
  let names := Ident.reserveAll Ident.reserveType [] (members.map baseName)
  (members.zip names).map fun (member, name) => ⟨name, member, c.cyclesBack member union⟩

end UnionVariant
end ClientGen
