import ClientGen.Model.Containment
import ClientGen.Number.Shortest
import ClientGen.Sdk.TypeUse
import ClientGen.Text.Quoted
import ClientGen.Warning

/-! # Data types

One file for each model and an index that exports them all. A record becomes a struct, a union an
enum over its members, an enumeration of texts an enum, one of other values a newtype with
constants, an alias or a map a type alias.
-/
namespace ClientGen.Sdk.DataTypes
open Code (Ty Expr Stmt Item Meta)

/-- All models, with what the file of each has to know of the others. -/
structure ModelSet where
  scope : ModelScope
  containment : Containment
  unions : Dict (List UnionVariant)

def unionVariants? (c : Containment) (m : Model) : Option (String × List UnionVariant) :=
  match m.kind with
  | .union members => some (m.name, UnionVariant.ofMembers c m.name members)
  | _ => none

def ModelSet.ofModels (models : List Model) : ModelSet :=
  let containment := Containment.ofModels models
  { scope := .ofModels models none
    containment
    unions := .ofList (models.filterMap (unionVariants? containment)) }

/-! ## Attributes -/

def derives (traits : List String) : Meta :=
  .list "derive" (traits.map .word)

def conversions : List String :=
  ["serde::Serialize", "serde::Deserialize"]

def dataDerives : Meta :=
  derives (["Debug", "Clone", "PartialEq"] ++ conversions)

/-- For values without parts; floats have no total equality. -/
def valueDerives (totalEquality : Bool) : Meta :=
  derives (["Debug", "Clone", "Copy", "PartialEq"] ++
    (if totalEquality then ["Eq", "Hash"] else []) ++ conversions)

def serde (settings : List Meta) : Meta :=
  .list "serde" settings

def rename (wire : String) : Meta :=
  .setting "rename" (.str wire)

/-! ## Records -/

/-- How a field is kept: always there, empty when left out, or optional. -/
def fieldSettings (f : Field) : List Meta :=
  if f.isNullable then
    [rename f.name, .word "default", .setting "skip_serializing_if" (.str "Option::is_none")]
  else if f.type.isArray then [rename f.name, .word "default"]
  else [rename f.name]

def boxedIf (boxed : Bool) (t : Ty) : Ty :=
  if boxed then .box t else t

def fieldType (s : ModelSet) (owner : String) (f : Field) : Ty :=
  let t := boxedIf (s.containment.cyclesBack f.type owner) (s.scope.type f.type)
  if f.isNullable then .option t else t

def fieldNames (fields : List Field) : List String :=
  Ident.reserveAll Ident.reserve [] (fields.map fun f => Ident.bindingName f.name)

def fieldCode (s : ModelSet) (owner : String) (f : Field) (name : String) : Code.Field where
  docs := docsOf f.description
  attrs := [serde (fieldSettings f)]
  isPublic := true
  name
  type := fieldType s owner f

def staticText : Ty := .ref (some "'static") (.path "str")

def discriminatorImpl (owner : String) (d : Discriminator) : Code.Impl where
  lifetimes := []
  trait := none
  target := .model none owner
  members := [
    .const ⟨[], "TYPE", staticText, .str d.value⟩,
    .function { Code.Function.public "get_type" with
      docs := ["Value of the `" ++ d.field ++ "` discriminator."]
      receiver := some .ref
      result := some staticText
      body := [.result (.path "Self::TYPE")] }]

def isVariantOf (name : String) (v : UnionVariant) : Bool :=
  v.member.directName? == some name

/-- The conversion of a record into a union that lists it. -/
def unionImpl? (s : ModelSet) (owner : String) (union : String) : Option Code.Impl := do
  let v ← (← s.unions.get? union).find? (isVariantOf owner)
  let value := if v.boxed then Expr.call "Box::new" [.path "value"] else .path "value"
  return {
    lifetimes := []
    trait := some (.generic "From" [.model none owner])
    target := .model none union
    members := [.function { Code.Function.public "from" with
      isPublic := false
      params := [⟨"value", .model none owner⟩]
      result := some (.path "Self")
      body := [.result (.call ("Self::" ++ v.name) [value])] }] }

def recordItems (s : ModelSet) (m : Model) (r : Record) (docs : List String) : List Item :=
  let fields := (r.fields.zip (fieldNames r.fields)).map fun (f, name) => fieldCode s m.name f name
  .struct ⟨docs, [dataDerives], m.name, [], .fields fields⟩ ::
    (r.discriminator.map fun d => .impl (discriminatorImpl m.name d)).toList ++
    (m.implements.filterMap (unionImpl? s m.name)).map .impl

/-! ## Enumerations -/

def textVariants (texts : List String) : List (String × String) :=
  (Ident.reserveAll Ident.reserveType [] (texts.map Ident.variantName)).zip texts

def textEnumItems (name : String) (texts : List String) (docs : List String) : List Item :=
  let variants := textVariants texts
  let arms := variants.map fun (v, wire) => ("Self::" ++ v, Expr.str wire)
  [.enum ⟨docs, [valueDerives true], name, variants.map fun (v, wire) =>
      ⟨[], [serde [rename wire]], v, none⟩⟩,
    .impl {
      lifetimes := []
      trait := none
      target := .model none name
      members := [.function { Code.Function.public "as_str" with
        docs := ["Wire value of this variant."]
        receiver := some .ref
        result := some staticText
        body := [.result (.cases (.path "self") arms)] }] },
    .impl {
      lifetimes := []
      trait := some (.path "std::fmt::Display")
      target := .model none name
      members := [.function { Code.Function.public "fmt" with
        isPublic := false
        receiver := some .ref
        params := [⟨"f", .mutableRef (.generic "std::fmt::Formatter" [.path "'_"])⟩]
        result := some (.path "std::fmt::Result")
        body :=
          [.result (.method (.path "f") "write_str" [.method (.path "self") "as_str" []])] }] }]

/-- Signs and points have no place in a name. -/
def constantName (name : String) : String :=
  Text.replaceChar '.' "_" (Text.replaceChar '-' "N" (Text.upperAscii name))

/-- The values of an enumeration other than of texts: a name and the literal of each. -/
structure Constants where
  base : String
  totalEquality : Bool
  values : List (String × String)

def numbered (literal : String) : String × String :=
  ("VALUE_" ++ literal, literal)

def constantItems (name : String) (c : Constants) (docs : List String) : List Item :=
  let names := Ident.reserveAll Ident.reserve [] (c.values.map fun (n, _) => constantName n)
  let constants := (names.zip c.values).map fun (n, _, literal) =>
    Code.Member.const ⟨[], n, .path "Self", .call "Self" [.verbatim literal]⟩
  let value := { Code.Function.public "value" with
    receiver := some .ref
    result := some (.path c.base)
    body := [.result (.path "self.0")] }
  [.struct ⟨docs, [valueDerives c.totalEquality, serde [.word "transparent"]], name, [],
      .newtype (.path c.base)⟩,
    .impl ⟨[], none, .model none name, constants ++ [.function value]⟩]

def enumItems (name : String) (values : EnumValues) (docs : List String) : Logged (List Item) :=
  match values with
  | .texts [] => do
    Logged.warn (.emptyEnum name)
    return [.alias ⟨docs, name, .path "String"⟩]
  | .texts vs => return textEnumItems name vs docs
  | .integers vs =>
    return constantItems name ⟨"i64", true, vs.map fun i => numbered (toString i)⟩ docs
  | .numbers vs => return constantItems name ⟨"f64", false, vs.map fun x => numbered x.text⟩ docs
  | .booleans vs =>
    return constantItems name ⟨"bool", true, vs.map fun b => (toString b, toString b)⟩ docs

/-! ## Unions -/

def unionItems (s : ModelSet) (name : String) (docs : List String) : Logged (List Item) :=
  match (s.unions.get? name).getD [] with
  | [] => do
    Logged.warn (.emptyUnion name)
    return [.alias ⟨docs, name, anyValue⟩]
  | variants =>
    return [.enum ⟨docs, [dataDerives, serde [.word "untagged"]], name, variants.map fun v =>
      ⟨[], [], v.name, some (boxedIf v.boxed (s.scope.type v.member))⟩⟩]

/-! ## Files -/

/-- The models that a file names, itself perhaps among them. -/
def mentioned (s : ModelSet) (m : Model) : List String :=
  match m.kind with
  | .record r => r.fields.flatMap (·.type.names) ++ m.implements.filter s.unions.contains
  | .union members => members.flatMap TypeRef.names
  | .alias target => target.names
  | .map value => value.names
  | .enum _ => []

def imports (s : ModelSet) (m : Model) : List String :=
  Dict.sortedNames ((mentioned s m).filter fun n => n != m.name && s.scope.knows n)

def importItems (names : List String) : List Item :=
  if names.isEmpty then [] else [.use false (.names "super" names)]

def declarations (s : ModelSet) (m : Model) : Logged (List Item) :=
  let docs := docsOf m.description
  match m.kind with
  | .record r => return recordItems s m r docs
  | .enum values => enumItems m.name values docs
  | .alias target => return [.alias ⟨docs, m.name, s.scope.type target⟩]
  | .map value => return [.alias ⟨docs, m.name, .map (s.scope.type value)⟩]
  | .union _ => unionItems s m.name docs

def moduleOf (s : ModelSet) (m : Model) : Logged Code.Module := do
  return {
    docs := ["`" ++ m.sourceName ++ "` (" ++ m.kind.label ++ ")"]
    items := importItems (imports s m) ++ (← declarations s m) }

/-- The module of each model. -/
def moduleNames (models : List Model) : List String :=
  Ident.reserveAll Ident.reserve ["mod"] (models.map fun m => Ident.bindingName m.name)

def fileName (module : String) : String :=
  Ident.unraw module ++ ".rs"

def index (modules : List (String × String)) : Code.Module where
  docs := ["Data types for every component schema."]
  items := modules.map (fun (module, _) => .mod true module) ++
    modules.map fun (module, name) => .use true (.names module [name])

def files (models : List Model) : Logged (List Code.File) := do
  let s := ModelSet.ofModels models
  let modules := moduleNames models
  let own ← (modules.zip models).mapM fun (module, m) =>
    return Code.File.mk (fileName module) (← moduleOf s m)
  return own ++ [⟨"mod.rs", index (modules.zip (models.map (·.name)))⟩]

end ClientGen.Sdk.DataTypes
