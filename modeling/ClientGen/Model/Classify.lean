import ClientGen.Document
import ClientGen.Ident
import ClientGen.Model
import ClientGen.Warning

/-! # Classification of schemas

An `enum` makes an enumeration, else `oneOf` a union, else an object with additional properties only
a map, any other object a record, and a titled scalar an alias. What fits none of these, and what
cannot be converted, is left out with a warning; the rest is not affected.
-/
namespace ClientGen.Classify

/-- The type name of a schema key or title; the names in `keep` stay as they are. -/
def typeName (keep : List String) (raw : String) : String :=
  if keep.contains raw then raw else Ident.typeName raw

/-- What follows the last slash. -/
def lastSegment (target : String) : String :=
  String.ofList (target.toList.reverse.takeWhile (· != '/')).reverse

def refName (keep : List String) (target : String) : Except TypeError String :=
  let last := lastSegment target
  if last.isEmpty || last.toList.head? == some '#' then throw (.emptyReference target)
  else return typeName keep last

/-! ## Types -/

/-- The type of a node whose items have the type `item`. -/
def nodeType (keep : List String) (s : Schema) (item : Except TypeError TypeRef) :
    Except TypeError TypeRef :=
  let titled (other : TypeRef) : TypeRef :=
    (s.title.map fun t => .named (typeName keep t)).getD other
  match s.ref with
  | some target => (refName keep target).map .named
  | none =>
    match s.primaryType? with
    | none => return titled .any
    | some "string" => return if s.format = some "date-time" then .timestamp else titled .text
    | some "integer" => return if s.format = some "int32" then .int32 else .int64
    | some "number" => return if s.format = some "float" then .float32 else .float64
    | some "boolean" => return .bool
    | some "array" => item.map .array
    | some "object" => return .map .any
    | some _ => return .any

def typeRef (keep : List String) : Schema → Except TypeError TypeRef
  | s@{ items := some i, .. } => nodeType keep s (typeRef keep i)
  | s => nodeType keep s (return .any)
termination_by structural s => s

/-! ## Kinds -/

def isObject (s : Schema) : Bool :=
  match s.primaryType? with
  | some t => t == "object"
  | none => !s.properties.isEmpty

def enumValues (name : String) (s : Schema) : Logged EnumValues :=
  let raw := s.enumValues.getD []
  let values := match s.primaryType? with
    | some "integer" => EnumValues.integers (raw.filterMap Json.asInt?)
    | some "number" => .numbers (raw.filterMap Json.asFloat?)
    | some "boolean" => .booleans (raw.filterMap Json.asBool?)
    | _ => .texts (raw.filterMap Json.asText?)
  let skipped := raw.length - values.count
  ⟨values, if skipped > 0 then [.droppedEnumValues name skipped] else []⟩

def unionMember? (keep : List String) (s : Schema) : Except TypeError (Option TypeRef) :=
  match s.ref with
  | some target => (refName keep target).map (some <| .named ·)
  | none => if s.primaryType?.isSome then (typeRef keep s).map some else return none

/-- Alternatives that say nothing about their type are left out. -/
def unionMembers (keep : List String) (s : Schema) : Except TypeError (List TypeRef) := do
  return (← (s.oneOf.getD []).mapM (unionMember? keep)).filterMap id

def field (keep : List String) (required : List String) (name : String) (raw : Json) :
    Except TypeError Field :=
  match Schema.ofJson? raw with
  | none => throw .invalidSchema
  | some s => do
    return {
      name
      type := ← typeRef keep s
      required := required.contains name
      constant := s.const.bind Json.asText?
      description := s.description }

def record (keep : List String) (name : String) (s : Schema) : Logged Record :=
  let results := s.properties.entries.map fun (p, raw) => (p, field keep s.required p raw)
  let fields := results.filterMap fun (_, r) => r.toOption
  let warnings := results.filterMap fun (p, r) =>
    match r with
    | .ok _ => none
    | .error cause => some (.unusableProperty (name ++ "." ++ p) cause)
  ⟨.ofFields fields, warnings⟩

def kindOf (keep : List String) (name : String) (s : Schema) :
    Logged (Except TypeError (Option ModelKind)) := do
  if s.hasEnum then return .ok (some (.enum (← enumValues name s)))
  else if s.hasOneOf then return (unionMembers keep s).map (some <| .union ·)
  else if isObject s then
    match s.additional, s.properties.isEmpty with
    | some (.inl true), true => return .ok (some (.map .any))
    | some (.inr values), true => return (typeRef keep values).map (some <| .map ·)
    | _, _ => return .ok (some (.record (← record keep name s)))
  else if s.primaryType?.isSome && s.title.isSome then
    return (typeRef keep { s with title := none }).map (some <| .alias ·)
  else return .ok none

/-- `none` is a schema of no kind. -/
def classify (keep : List String) (name : String) (s : Schema) :
    Logged (Except TypeError (Option Model)) := do
  let found ← kindOf keep name s
  return found.map (·.map fun kind =>
    { name := typeName keep name, sourceName := name, description := s.description, kind
      implements := [] })

/-! ## All schemas of a document -/

def addSchema (keep : List String) (models : Dict Model) (name : String) (raw : Json) :
    Logged (Dict Model) := do
  match Schema.ofJson? raw with
  | none => do
    Logged.warn (.malformedSchema name)
    return models
  | some s =>
    match ← classify keep name s with
    | .error cause => do
      Logged.warn (.unusableSchema name cause)
      return models
    | .ok none => do
      Logged.warn (.unclassifiedSchema name)
      return models
    | .ok (some model) =>
      match models.get? model.name with
      | some existing => do
        Logged.warn (.takenTypeName name model.name existing.sourceName)
        return models
      | none => return models.insert model.name model

/-- For each name that a union lists, the unions that list it, as often as they do. -/
abbrev Memberships := Dict (List String)

def addMember (union : String) (table : Memberships) (member : TypeRef) : Memberships :=
  match member.directName? with
  | some name => table.insert name ((table.get? name).getD [] ++ [union])
  | none => table

def addMembers (table : Memberships) (m : Model) : Memberships :=
  match m.kind with
  | .union members => members.foldl (addMember m.name) table
  | _ => table

def memberships (models : List Model) : Memberships :=
  models.foldl addMembers .empty

/-- Each model takes what stands under its name out of the table. -/
def takeUnions (table : Memberships) : List Model → List Model
  | [] => []
  | m :: rest =>
    match table.get? m.name with
    | some unions =>
      { m with implements := Dict.sortedNames unions } :: takeUnions (table.erase m.name) rest
    | none => m :: takeUnions table rest

/-- Fills in the unions that each model belongs to. -/
def linkUnions (models : List Model) : List Model :=
  takeUnions (memberships models) models

/-- The models of a document in the order of their type names. -/
def models (keep : List String) (d : Document) : Logged (List Model) := do
  let add (models : Dict Model) (s : String × Json) := addSchema keep models s.1 s.2
  let models ← d.schemas.entries.foldlM add Dict.empty
  return linkUnions models.values

end ClientGen.Classify
