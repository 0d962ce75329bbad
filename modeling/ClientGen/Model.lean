import ClientGen.Model.TypeRef
import ClientGen.Number.Binary64

/-! # Data models

A component schema after classification: one of five kinds, under the type name that the generated
code gives it.
-/
namespace ClientGen

structure Field where
  /-- As on the wire. -/
  name : String
  type : TypeRef
  required : Bool
  constant : Option String
  description : Option String
  deriving DecidableEq, Repr

/-- Arrays that are left out are empty, other fields are null. -/
def Field.isNullable (f : Field) : Bool :=
  !f.required && !f.type.isArray

/-- The property that tells the members of a union apart. -/
structure Discriminator where
  field : String
  value : String
  deriving DecidableEq, Repr

structure Record where
  fields : List Field
  discriminator : Option Discriminator
  deriving DecidableEq, Repr

inductive EnumValues
  | texts (values : List String)
  | integers (values : List Int)
  | numbers (values : List Binary64)
  | booleans (values : List Bool)
  deriving DecidableEq, Repr

def EnumValues.count : EnumValues → Nat
  | texts vs => vs.length
  | integers vs => vs.length
  | numbers vs => vs.length
  | booleans vs => vs.length

inductive ModelKind
  | record (r : Record)
  | enum (values : EnumValues)
  | alias (target : TypeRef)
  | map (value : TypeRef)
  | union (members : List TypeRef)
  deriving DecidableEq, Repr

def ModelKind.label : ModelKind → String
  | .record _ => "record"
  | .enum _ => "enum"
  | .alias _ => "alias"
  | .map _ => "map"
  | .union _ => "union"

structure Model where
  /-- The type name. -/
  name : String
  /-- The key among the component schemas. -/
  sourceName : String
  description : Option String
  kind : ModelKind
  /-- The unions that list this model, in order. -/
  implements : List String
  deriving DecidableEq, Repr

/-- The record of some fields; the first constant among them discriminates. -/
def Record.ofFields (fields : List Field) : Record where
  fields
  discriminator := fields.findSome? fun f => f.constant.map fun value => ⟨f.name, value⟩

end ClientGen
