import ClientGen.Proofs.Classify.Properties
import ClientGen.Proofs.Containment.Closure
import ClientGen.Proofs.DataTypes.Conversions
import ClientGen.Proofs.Text.Literals
import ClientGen.Proofs.Text.Utf8

/-! # Structs of records

A record's struct has one field for each property that can be read and has a type. The field says
under which name the property travels, whether it may be missing, and what is stored out of line.
-/
namespace ClientGen

/-! ## Properties -/

/-- A property whose schema can be read and has a type. -/
structure Property where
  name : String
  schema : Schema
  type : TypeRef

namespace Property

/-- The text that every value of the property has to be. -/
def constant? (p : Property) : Option String :=
  p.schema.const.bind Json.asText?

/-- Neither required nor an array, which can be empty. -/
def isOptional (p : Property) (required : List String) : Bool :=
  !required.contains p.name && !p.type.isArray

def ofEntry? (keep : List String) (e : String × Json) : Option Property := do
  let schema ← Schema.ofJson? e.2
  let type ← (Classify.typeRef keep schema).toOption
  return ⟨e.1,schema,type⟩

def toField (required : List String) (p : Property) : Field :=
  ⟨p.name,p.type,required.contains p.name,p.constant?,p.schema.description⟩

end Property

/-- The properties of a schema that can be read and have a type, by the bytes of their names. -/
structure Schema.Maps (keep : List String) (s : Schema) (ps : List Property) : Prop where
  increasing : ps.Pairwise fun p q => Config.utf8 p.name < Config.utf8 q.name
  mem_iff : ∀ p, p ∈ ps ↔ ∃ raw, s.properties.get? p.name = some raw ∧
    Schema.ofJson? raw = some p.schema ∧ Classify.typeRef keep p.schema = .ok p.type

namespace Classify
variable {keep : List String} {s : Schema}

def mapped (keep : List String) (s : Schema) : List Property :=
  s.properties.entries.filterMap (Property.ofEntry? keep)

theorem ofEntry?_eq_some {e : String × Json} {p : Property} :
    Property.ofEntry? keep e = some p ↔ e.1 = p.name ∧ Schema.ofJson? e.2 = some p.schema ∧
      typeRef keep p.schema = .ok p.type := by
  obtain ⟨name,schema,type⟩ := p
  unfold Property.ofEntry?
  constructor
  · intro h
    obtain ⟨schema',hschema,h⟩ := Option.bind_eq_some_iff.mp h
    obtain ⟨type',htype,h⟩ := Option.bind_eq_some_iff.mp h
    cases h
    refine ⟨rfl,hschema,?_⟩
    cases ht : typeRef keep schema with
    | error cause => simp [ht, Except.toOption] at htype
    | ok t =>
      rw [ht] at htype
      exact congrArg Except.ok (Option.some.inj htype)
  · rintro ⟨rfl,hschema,htype⟩
    simp only at hschema htype
    simp [hschema, htype, Except.toOption]

theorem maps_mapped (keep : List String) (s : Schema) : s.Maps keep (mapped keep s) where
  increasing := by
    refine List.pairwise_filterMap.mpr (s.properties.increasing.imp ?_)
    intro a b hab p hp q hq
    rw [← (ofEntry?_eq_some.mp hp).1, ← (ofEntry?_eq_some.mp hq).1]
    exact Config.lt_iff_utf8_lt.mp hab
  mem_iff p := by
    rw [mapped, List.mem_filterMap]
    constructor
    · rintro ⟨⟨name,raw⟩,he,hp⟩
      obtain ⟨rfl,hread⟩ := ofEntry?_eq_some.mp hp
      exact ⟨raw,Dict.get?_eq_some_iff.mpr he,hread⟩
    · rintro ⟨raw,hraw,hread⟩
      exact ⟨(p.name,raw),Dict.get?_eq_some_iff.mp hraw,ofEntry?_eq_some.mpr ⟨rfl,hread⟩⟩

theorem fieldOf?_eq_map (keep : List String) (s : Schema) (e : String × Json) :
    fieldOf? keep s e = (Property.ofEntry? keep e).map (Property.toField s.required) := by
  unfold fieldOf? field Property.ofEntry?
  cases Schema.ofJson? e.2 with
  | none => rfl
  | some schema =>
    simp only [Option.bind_eq_bind, Option.bind_some]
    cases typeRef keep schema with
    | error cause => rfl
    | ok t => rfl

/-- A record has the fields of its schema's properties. -/
theorem record_of_kindOf {name : String} {r : Record}
    (h : (kindOf keep name s).value = .ok (some (.record r))) :
    r = .ofFields ((mapped keep s).map (Property.toField s.required)) := by
  rw [(isRecord_of_kindOf h).kindOf_eq] at h
  cases h
  rw [fields_record, mapped, List.map_filterMap]
  congr 2
  funext e
  exact fieldOf?_eq_map keep s e

end Classify

namespace Code

def Item.fieldsOf? (name : String) : Item → Option (List Field)
  | .struct ⟨_,_,n,_,.fields fs⟩ => if n = name then some fs else none
  | _ => none

def Member.const? : Member → Option Const
  | .const c => some c
  | .function _ => none

def Item.constantsOf (name : String) : Item → List Const
  | .impl i => if i.target.name? = some name then i.members.filterMap Member.const? else []
  | _ => []

/-- The constants `TYPE` of a type in all files. -/
def typeConstants (files : List File) (name : String) : List Const :=
  (files.flatMap fun f => f.module.items.flatMap (Item.constantsOf name)).filter (·.name == "TYPE")

end Code

/-! ## Fields of structs -/

namespace Sdk.DataTypes
open Code (Item Ty)
open Relation (ReflTransGen)

def optionIf (optional : Bool) (t : Ty) : Ty :=
  if optional then .option t else t

/-- Stored in place, the part would bring its owner back. -/
def Encloses (models : List Model) (owner : String) (part : TypeRef) : Prop :=
  ∃ n, part = .named n ∧ ReflTransGen (Containment.InlineEdge models) n owner

/-- The code of a field does what its property says. -/
structure FieldFor (models : List Model) (owner : String) (required : List String) (p : Property)
    (f : Code.Field) : Prop where
  /-- The type is itself neither optional nor boxed. -/
  plain : ∀ t, (ModelSet.ofModels models).scope.type p.type ≠ .option t ∧
    (ModelSet.ofModels models).scope.type p.type ≠ .box t
  boxed : Encloses models owner p.type → f.type = optionIf (p.isOptional required)
    (.box ((ModelSet.ofModels models).scope.type p.type))
  bare : ¬ Encloses models owner p.type → f.type = optionIf (p.isOptional required)
    ((ModelSet.ofModels models).scope.type p.type)
  attrs : ∃ literal : Code.Expr, Text.unquote? literal.render = some p.name ∧
    f.attrs = [.list "serde" (.setting "rename" literal ::
      (if p.isOptional required || p.type.isArray then [.word "default"] else []) ++
      if p.isOptional required then
        [.setting "skip_serializing_if" (.str "Option::is_none")] else [])]

variable {models : List Model}

theorem type_ne_option (s : ModelScope) (t : TypeRef) (t' : Ty) : s.type t ≠ .option t' := by
  cases t with
  | named n =>
    unfold ModelScope.type
    split
    · exact Ty.noConfusion
    · exact Ty.noConfusion
  | _ => exact Ty.noConfusion

theorem fieldFor_fieldCode (owner : String) (required : List String) (p : Property)
    (name : String) : FieldFor models owner required p
      (fieldCode (.ofModels models) owner (p.toField required) name) := by
  have hcycles : (ModelSet.ofModels models).containment.cyclesBack p.type owner = true ↔
      Encloses models owner p.type := Containment.cyclesBack_iff
  have htype : fieldType (.ofModels models) owner (p.toField required) =
      optionIf (p.isOptional required)
        (boxedIf ((ModelSet.ofModels models).containment.cyclesBack p.type owner)
          ((ModelSet.ofModels models).scope.type p.type)) := rfl
  refine ⟨fun t => ⟨type_ne_option _ _ t,type_ne_box _ _ t⟩,?_,?_,.str p.name,
    Text.unquote?_quote p.name,?_⟩
  · intro h
    rw [fieldCode, htype, hcycles.mpr h]
    rfl
  · intro h
    rw [fieldCode, htype, Bool.eq_false_iff.mpr (mt hcycles.mp h)]
    rfl
  · have hsettings : fieldSettings (p.toField required) = if p.isOptional required then
        [rename p.name,.word "default",.setting "skip_serializing_if" (.str "Option::is_none")]
      else if p.type.isArray then [rename p.name,.word "default"] else [rename p.name] := rfl
    rw [fieldCode, hsettings]
    cases p.isOptional required with
    | true => rfl
    | false =>
      cases p.type.isArray with
      | true => rfl
      | false => rfl

/-- The fields of a record's struct are those of its properties, in their order. -/
theorem forall₂_fieldCode (owner : String) (required : List String) (ps : List Property)
    (names : List String) (h : names.length = ps.length) :
    List.Forall₂ (FieldFor models owner required) ps
      (((ps.map (Property.toField required)).zip names).map fun (f,name) =>
        fieldCode (.ofModels models) owner f name) := by
  induction ps generalizing names with
  | nil => exact .nil
  | cons p rest ih =>
    cases names with
    | nil => cases h
    | cons name names =>
      exact .cons (fieldFor_fieldCode owner required p name) (ih names (Nat.succ.inj h))

/-! ## Constants of types -/

theorem constantsOf_importItems (names : List String) (n : String) :
    (importItems names).flatMap (Item.constantsOf n) = [] := by
  unfold importItems
  split <;> rfl

theorem constantsOf_indexFile (models : List Model) (n : String) :
    (indexFile models).module.items.flatMap (Item.constantsOf n) = [] := by
  refine List.flatMap_eq_nil_iff.mpr fun i hi => ?_
  rcases List.mem_append.mp hi with hi | hi
  · obtain ⟨_,_,rfl⟩ := List.mem_map.mp hi
    rfl
  · obtain ⟨_,_,rfl⟩ := List.mem_map.mp hi
    rfl

theorem constantsOf_conversions (s : ModelSet) (m : Model) (n : String) :
    ((m.implements.filterMap (unionImpl? s m.name)).map Item.impl).flatMap (Item.constantsOf n) =
      [] := by
  refine List.flatMap_eq_nil_iff.mpr fun i hi => ?_
  obtain ⟨impl,himpl,rfl⟩ := List.mem_map.mp hi
  obtain ⟨u,_,hunion⟩ := List.mem_filterMap.mp himpl
  obtain ⟨_,v,_,_,rfl⟩ := unionImpl?_iff.mp hunion
  have hnone : (conversionImpl m.name u v).members.filterMap Code.Member.const? = [] := rfl
  rw [Item.constantsOf, hnone, ite_self]

/-- The constant of a record whose values a text tells apart. -/
def typeConstant (d : Discriminator) : Code.Const :=
  ⟨[],"TYPE",staticText,.str d.value⟩

theorem constantsOf_record {s : ModelSet} {m : Model} {r : Record} (hk : m.kind = .record r) :
    (declarations s m).value.flatMap (Item.constantsOf m.name) =
      (r.discriminator.map typeConstant).toList := by
  have hown : ((r.discriminator.map fun d =>
      Item.impl (discriminatorImpl m.name d)).toList).flatMap (Item.constantsOf m.name) =
        (r.discriminator.map typeConstant).toList := by
    cases r.discriminator with
    | none => rfl
    | some d =>
      simp [Item.constantsOf, discriminatorImpl, Ty.name?, Code.Member.const?, typeConstant]
  simp only [declarations, hk, Logged.value_pure, recordItems, List.cons_append,
    List.flatMap_cons, List.flatMap_append, constantsOf_conversions, List.append_nil, hown]
  rfl

theorem constantsOf_impl {i : Code.Impl} {owner n : String} (h : i.target = .model none owner)
    (hn : owner ≠ n) : Item.constantsOf n (.impl i) = [] := by
  rw [Item.constantsOf, h, if_neg]
  exact fun he => hn (Option.some.inj he)

theorem constantsOf_enumItems {name n : String} (hn : name ≠ n) (values : EnumValues)
    (docs : List String) :
    (enumItems name values docs).value.flatMap (Item.constantsOf n) = [] := by
  have hvalues (c : Constants) : (constantItems name c docs).flatMap (Item.constantsOf n) = [] := by
    rw [constantItems, List.flatMap_cons, List.flatMap_cons, constantsOf_impl rfl hn]
    rfl
  cases values with
  | texts vs =>
    cases vs with
    | nil => rfl
    | cons v vs =>
      rw [enumItems, Logged.value_pure, textEnumItems, List.flatMap_cons, List.flatMap_cons,
        List.flatMap_cons, constantsOf_impl rfl hn, constantsOf_impl rfl hn]
      · rfl
      · exact List.cons_ne_nil _ _
  | integers vs => exact hvalues _
  | numbers vs => exact hvalues _
  | booleans vs => exact hvalues _

/-- Constants belong to the type of the file that they are in. -/
theorem constantsOf_other {s : ModelSet} {m : Model} {n : String} (hn : m.name ≠ n) :
    (declarations s m).value.flatMap (Item.constantsOf n) = [] := by
  unfold declarations
  cases m.kind with
  | record r =>
    have hown : ((r.discriminator.map fun d =>
        Item.impl (discriminatorImpl m.name d)).toList).flatMap (Item.constantsOf n) = [] := by
      cases r.discriminator with
      | none => rfl
      | some d =>
        rw [Option.map_some, Option.toList_some, List.flatMap_singleton, constantsOf_impl rfl hn]
    simp only [Logged.value_pure, recordItems, List.cons_append, List.flatMap_cons,
      List.flatMap_append, constantsOf_conversions, hown]
    rfl
  | enum values => exact constantsOf_enumItems hn values _
  | union members =>
    simp only [unionItems]
    split
    · rfl
    · rfl
  | _ => rfl

theorem constantsOf_fileOf (named : String × Model) (n : String) :
    (fileOf models named).module.items.flatMap (Item.constantsOf n) =
      (declarations (.ofModels models) named.2).value.flatMap (Item.constantsOf n) := by
  rw [items_fileOf, List.flatMap_append, constantsOf_importItems, List.nil_append]

/-- A record has the constant that its discriminator asks for, and no second one. -/
theorem typeConstants_files (hd : (models.map (·.name)).Nodup) {m : Model} (hm : m ∈ models)
    {r : Record} (hk : m.kind = .record r) : Code.typeConstants (files models).value m.name =
      (r.discriminator.map typeConstant).toList := by
  obtain ⟨module,hz⟩ := exists_module hm
  have hother : ∀ named ∈ (moduleNames models).zip models, named.2.name ≠ m.name →
      (fileOf models named).module.items.flatMap (Item.constantsOf m.name) = [] := by
    intro named _ hne
    rw [constantsOf_fileOf, constantsOf_other hne]
  unfold Code.typeConstants
  rw [value_files, List.flatMap_append, List.flatMap_map,
    flatMap_eq_of_mem (nodup_names_modules hd) hz hother, constantsOf_fileOf,
    constantsOf_record hk, List.flatMap_singleton, constantsOf_indexFile, List.append_nil]
  cases r.discriminator with
  | none => rfl
  | some d => rfl

/-! ## Structs -/

theorem fieldsOf?_importItems (names : List String) (n : String) :
    (importItems names).filterMap (Item.fieldsOf? n) = [] := by
  unfold importItems
  split <;> rfl

/-- The file of a record has one struct of its name. -/
theorem fieldsOf?_fileOf (module : String) {m : Model} {r : Record} (hk : m.kind = .record r) :
    (fileOf models (module,m)).module.items.filterMap (Item.fieldsOf? m.name) =
      [(r.fields.zip (fieldNames r.fields)).map fun (f,name) =>
        fieldCode (.ofModels models) m.name f name] := by
  have himpls (impls : List Code.Impl) :
      (impls.map Item.impl).filterMap (Item.fieldsOf? m.name) = [] := by
    rw [List.filterMap_map]
    exact List.filterMap_eq_nil_iff.mpr fun _ _ => rfl
  rw [items_fileOf, List.filterMap_append, fieldsOf?_importItems, List.nil_append]
  simp only [declarations, hk, Logged.value_pure, recordItems, toList_map_impl, List.cons_append,
    ← List.map_append]
  rw [List.filterMap_cons, himpls]
  simp only [Item.fieldsOf?, if_true]

end Sdk.DataTypes

theorem value_discriminator (required : List String) (ps : List Property) :
    ((Record.ofFields (ps.map (Property.toField required))).discriminator.map (·.value)) =
      ps.findSome? Property.constant? := by
  induction ps with
  | nil => rfl
  | cons p rest ih =>
    simp only [Record.ofFields, List.map_cons, List.findSome?_cons] at ih ⊢
    cases hconstant : p.constant? with
    | none => simpa [Property.toField, hconstant] using ih
    | some value => simp [Property.toField, hconstant]

namespace Generator
open Sdk.DataTypes (FieldFor fieldNames)

/-- The only struct of a record has a field for each property, and the record has the first constant
of these properties, if one of them has any. -/
structure RecordFaithful (g : Generator) (record : String) (required : List String)
    (ps : List Property) : Prop where
  struct : ∃ home fields, Code.IsHome (g.files .models).value record home ∧
    home.module.items.filterMap (Code.Item.fieldsOf? record) = [fields] ∧
    List.Forall₂ (FieldFor g.models.value record required) ps fields
  constant : (Code.typeConstants (g.files .models).value record).map
    (fun c => Text.unquote? c.value.render) = (ps.findSome? Property.constant?).toList.map some

/-- Each record is generated from the properties of its schema that can be read and have a type. -/
theorem records_faithful (g : Generator) : ∀ m ∈ g.models.value, ∀ r, m.kind = .record r →
    ∃ s ps, Classify.schema? g.document m.sourceName = some s ∧
      s.Maps g.config.preservedNames ps ∧ RecordFaithful g m.name s.required ps := by
  intro m hm r hk
  obtain ⟨s,hs,hkind⟩ := Classify.hasSource_models hm
  rw [hk] at hkind
  have hr := Classify.record_of_kindOf hkind
  have hd := g.nodup_models
  refine ⟨s,_,hs,Classify.maps_mapped g.config.preservedNames s,?_,?_⟩
  · obtain ⟨module,_,hhome⟩ := Sdk.DataTypes.exists_isHome hd hm
    have hlength (fields : List Field) : (fieldNames fields).length = fields.length := by
      simp [fieldNames]
    refine ⟨_,_,hhome,Sdk.DataTypes.fieldsOf?_fileOf module hk,?_⟩
    rw [hr]
    apply Sdk.DataTypes.forall₂_fieldCode
    rw [hlength, Record.ofFields, List.length_map]
  · rw [value_files_models, Sdk.DataTypes.typeConstants_files hd hm hk,
      ← value_discriminator s.required, ← hr]
    cases r.discriminator with
    | none => rfl
    | some d => exact congrArg (· :: []) (Text.unquote?_quote d.value)

/-- A record that holds itself, and one with a constant on a property that has no type. -/
def kennel : Generator where
  document :=
    { paths := .empty
      components := some ⟨.ofList [
        ("Dog",.object [("type",.text "object"),("required",.list [.text "kind"]),
          ("properties",.object [
            ("kind",.object [("type",.text "string"),("const",.text "dog")]),
            ("parent",.object [("$ref",.text "#/components/schemas/Dog")]),
            ("\"old\" toys",.object [("type",.text "array")])])]),
        ("Pet",.object [("type",.text "object"),("properties",.object [
          ("kind",.object [("$ref",.text "#/components/schemas/"),("const",.text "cat")]),
          ("name",.object [("type",.text "string")])])])],.empty,.empty⟩ }
  config := defaultConfig
  paths := .default

theorem models_kennel : kennel.models.value.map (fun m => (m.name,m.sourceName,m.kind)) = [
    ("Dog","Dog",.record (.ofFields [⟨"\"old\" toys",.array .any,false,none,none⟩,
      ⟨"kind",.text,true,some "dog",none⟩,⟨"parent",.named "Dog",false,none,none⟩])),
    ("Pet","Pet",.record (.ofFields [⟨"name",.text,false,none,none⟩]))] := by
  decide +kernel

theorem records_faithful_kennel : ∃ m ∈ kennel.models.value, m.name = "Dog" ∧
    (∃ r, m.kind = .record r) ∧
    ∃ s ps, Classify.schema? kennel.document m.sourceName = some s ∧
      s.Maps kennel.config.preservedNames ps ∧ RecordFaithful kennel m.name s.required ps := by
  obtain ⟨m,hm,hmade⟩ := List.mem_map.mp (models_kennel.symm ▸ List.mem_cons_self)
  obtain ⟨hname,hmade⟩ := Prod.mk.inj hmade
  obtain ⟨_,hkind⟩ := Prod.mk.inj hmade
  exact ⟨m,hm,hname,⟨_,hkind⟩,records_faithful kennel m hm _ hkind⟩

/-- A constant alone does not make the record expose one: its property may have no type. -/
theorem untyped_constant_kennel : ¬ ∀ m ∈ kennel.models.value, ∀ r, m.kind = .record r →
    ∀ s, Classify.schema? kennel.document m.sourceName = some s →
      (Code.typeConstants (kennel.files .models).value m.name ≠ [] ↔
        ∃ name raw property value, s.properties.get? name = some raw ∧
          Schema.ofJson? raw = some property ∧ property.const.bind Json.asText? = some value) := by
  intro h
  obtain ⟨m,hm,hmade⟩ := List.mem_map.mp
    (models_kennel.symm ▸ List.mem_cons_of_mem _ List.mem_cons_self)
  obtain ⟨_,hmade⟩ := Prod.mk.inj hmade
  obtain ⟨hsource,hkind⟩ := Prod.mk.inj hmade
  obtain ⟨s,property,hs,hraw,hproperty,hvalue⟩ : ∃ s property,
      Classify.schema? kennel.document "Pet" = some s ∧
        s.properties.get? "kind" = some (.object [("$ref",.text "#/components/schemas/"),
          ("const",.text "cat")]) ∧
        Schema.ofJson? (.object [("$ref",.text "#/components/schemas/"),
          ("const",.text "cat")]) = some property ∧
        property.const.bind Json.asText? = some "cat" := ⟨_,_,rfl,rfl,rfl,rfl⟩
  have hnone : Code.typeConstants (kennel.files .models).value m.name = [] := by
    rw [value_files_models, Sdk.DataTypes.typeConstants_files kennel.nodup_models hm hkind]
    rfl
  exact (h m hm _ hkind s (hsource ▸ hs)).mpr ⟨_,_,property,_,hraw,hproperty,hvalue⟩ hnone

end Generator
end ClientGen
