import ClientGen.Data.Shape

/-! # Schemas

One node of a JSON schema as API documents use it. Properties and listed values stay plain JSON, so
that each can be read, or found unusable, on its own.
-/
namespace ClientGen

inductive TypeSpec
  | one (name : String)
  | several (names : List String)
  deriving DecidableEq, Repr

structure Schema where
  type : Option TypeSpec
  ref : Option String
  title : Option String
  description : Option String
  format : Option String
  properties : Dict Json
  required : List String
  items : Option Schema
  enumValues : Option (List Json)
  oneOf : Option (List Schema)
  /-- `additionalProperties`: any value or none, or a schema that each value follows. -/
  additional : Option (Bool ⊕ Schema)
  const : Option Json
  nullable : Option Bool

namespace Schema

def memberNames : List String :=
  ["type", "$ref", "title", "description", "format", "properties", "required", "items", "enum",
    "oneOf", "additionalProperties", "const", "nullable"]

def readType : Reader TypeSpec :=
  .either (fun t => t.text?.map .one) (fun t => (Reader.listOf Tree.text? t).map .several)

def readAt : Nat → Reader Schema
  | 0, _ => none
  | fuel + 1, t => do
    let m ← Members.read? memberNames t
    return {
      type := ← m.optional "type" readType
      ref := ← m.optional "$ref" Tree.text?
      title := ← m.optional "title" Tree.text?
      description := ← m.optional "description" Tree.text?
      format := ← m.optional "format" Tree.text?
      properties := ← m.defaulted "properties" .empty (.dictOf Tree.json?)
      required := ← m.defaulted "required" [] (.listOf Tree.text?)
      items := ← m.optional "items" (readAt fuel)
      enumValues := ← m.optional "enum" (.listOf Tree.json?)
      oneOf := ← m.optional "oneOf" (.listOf (readAt fuel))
      additional := ← m.optional "additionalProperties"
        (.either (fun t => t.bool?.map .inl) (fun t => (readAt fuel t).map .inr))
      const := ← m.optional "const" Tree.json?
      nullable := ← m.optional "nullable" Tree.bool? }

/-- Each schema inside a schema lies deeper in the tree. -/
def read : Reader Schema := fun t =>
  readAt (t.height + 1) t

def ofJson? (j : Json) : Option Schema :=
  read (.ofJson j)

/-- The first declared type other than `null`. -/
def primaryType? (s : Schema) : Option String :=
  match s.type with
  | none => none
  | some (.one name) => some name
  | some (.several names) => names.find? (· != "null")

def hasEnum (s : Schema) : Bool :=
  s.enumValues.any (! ·.isEmpty)

def hasOneOf (s : Schema) : Bool :=
  s.oneOf.any (! ·.isEmpty)

/-- The reference of an array's items. -/
def itemsRef? (s : Schema) : Option String :=
  if s.primaryType? = some "array" then s.items.bind (·.ref) else none

end Schema
end ClientGen
