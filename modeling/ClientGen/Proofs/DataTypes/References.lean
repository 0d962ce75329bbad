import ClientGen.Proofs.Classify.Models
import ClientGen.Proofs.Code.Reading
import ClientGen.Proofs.DataTypes.Declarations

/-! # References between data types

The file of a model imports what it mentions and is not its own, no more and no less, and the index
exports each name once.
-/
namespace ClientGen.Sdk.DataTypes
open Code (Item Ty)

/-! ## What a file writes -/

@[simp] theorem models_boxedIf (boxed : Bool) (t : Ty) : (boxedIf boxed t).models = t.models := by
  cases boxed <;> rfl

theorem models_fieldType (s : ModelSet) (owner : String) (f : Field) :
    (fieldType s owner f).models = (s.scope.type f.type).models := by
  unfold fieldType
  split <;> simp [Ty.models]

theorem mem_models_type {s : ModelScope} {t : TypeRef} {r : Option String × String} :
    r ∈ (s.type t).models ↔ r.1 = s.path ∧ r.2 ∈ t.names ∧ s.knows r.2 = true := by
  rw [ModelScope.models_type]
  constructor
  · intro h
    obtain ⟨n,hn,rfl⟩ := List.mem_map.mp h
    exact ⟨rfl,List.mem_filter.mp hn⟩
  · rintro ⟨hs,hn⟩
    exact List.mem_map.mpr ⟨r.2,List.mem_filter.mpr hn,Prod.ext hs.symm rfl⟩

theorem types_recordStruct (s : ModelSet) (owner : String) (fields : List Field) :
    ((fields.zip (fieldNames fields)).map fun (f,name) => fieldCode s owner f name).map (·.type) =
      fields.map (fieldType s owner) := by
  have hl : fields.length ≤ (fieldNames fields).length := by simp [fieldNames]
  conv_rhs => rw [← List.map_fst_zip hl, List.map_map]
  rw [List.map_map]
  rfl

@[simp] theorem models_staticText : staticText.models = [] := rfl

theorem models_discriminatorImpl (owner : String) (d : Discriminator) :
    (Item.impl (discriminatorImpl owner d)).models = [(none,owner)] := rfl

theorem unionImpl?_eq_some {s : ModelSet} {owner union : String} {i : Code.Impl}
    (h : unionImpl? s owner union = some i) : s.unions.contains union = true ∧
      (Item.impl i).models = [(none,owner),(none,union),(none,owner)] := by
  unfold unionImpl? at h
  cases hu : s.unions.get? union with
  | none => simp [hu] at h
  | some vs =>
    rw [hu] at h
    cases hv : vs.find? (isVariantOf owner) with
    | none => simp [hv] at h
    | some v =>
      simp only [Option.bind_eq_bind, Option.bind_some, hv, Option.pure_def,
        Option.some.injEq] at h
      subst h
      exact ⟨Dict.contains_iff.mpr ⟨vs,hu⟩,rfl⟩

theorem models_constantItems (name : String) (c : Constants) (docs : List String) :
    (constantItems name c docs).flatMap Item.models = [(none,name)] := by
  simp [constantItems, Item.models, Item.types, Code.StructBody.types, Code.Impl.types,
    Code.Member.types, Code.Function.types, Code.Function.public, Code.Stmt.typesAll,
    Code.Stmt.types, Ty.models, List.flatMap_assoc]
  rintro _ n _ literal _ rfl t ht
  rw [List.mem_singleton.mp ht, Ty.models]

theorem models_enumItems {name : String} {values : EnumValues} {docs : List String}
    {r : Option String × String} (h : r ∈ (enumItems name values docs).value.flatMap Item.models) :
    r = (none,name) := by
  cases values with
  | texts vs =>
    cases vs with
    | nil => simp [enumItems, Item.models, Item.types, Ty.models] at h
    | cons v vs =>
      simpa [enumItems, textEnumItems, Item.models, Item.types, Code.Impl.types,
        Code.Member.types, Code.Function.types, Code.Function.public, Code.Stmt.typesAll,
        Code.Stmt.types, Ty.models, Ty.modelsAll, Function.comp_def] using h
  | integers vs => simpa [enumItems, models_constantItems] using h
  | numbers vs => simpa [enumItems, models_constantItems] using h
  | booleans vs => simpa [enumItems, models_constantItems] using h

theorem mem_models_recordItems {s : ModelSet} {m : Model} {rec : Record} {docs : List String}
    {r : Option String × String} : r ∈ (recordItems s m rec docs).flatMap Item.models ↔
      (∃ f ∈ rec.fields, r ∈ (s.scope.type f.type).models) ∨
      (∃ d, rec.discriminator = some d ∧ r = (none,m.name)) ∨
      ∃ u ∈ m.implements, ∃ i, unionImpl? s m.name u = some i ∧ r ∈ (Item.impl i).models := by
  have hstruct (docs : List String) : (Item.struct ⟨docs,[dataDerives],m.name,[],.fields
      ((rec.fields.zip (fieldNames rec.fields)).map fun (f,name) =>
        fieldCode s m.name f name)⟩).models = rec.fields.flatMap fun f => (s.scope.type f.type).models := by
    simp only [Item.models, Item.types, Code.StructBody.types, types_recordStruct, List.flatMap_map,
      models_fieldType]
  simp only [recordItems, List.flatMap_append, List.flatMap_cons, hstruct, List.mem_append,
    List.mem_flatMap, Option.mem_toList, Option.map_eq_some_iff, List.mem_map,
    List.mem_filterMap, or_assoc]
  refine or_congr Iff.rfl (or_congr ?_ ?_)
  · constructor
    · rintro ⟨_,⟨d,hd,rfl⟩,hr⟩
      exact ⟨d,hd,List.mem_singleton.mp (models_discriminatorImpl m.name d ▸ hr)⟩
    · rintro ⟨d,hd,rfl⟩
      exact ⟨_,⟨d,hd,rfl⟩,List.mem_singleton_self _⟩
  · constructor
    · rintro ⟨_,⟨i,⟨u,hu,hi⟩,rfl⟩,hr⟩
      exact ⟨u,hu,i,hi,hr⟩
    · rintro ⟨u,hu,i,hi,hr⟩
      exact ⟨_,⟨i,⟨u,hu,hi⟩,rfl⟩,hr⟩

variable {models : List Model}

theorem mem_models_unionItems (hd : (models.map (·.name)).Nodup) {m : Model} (hm : m ∈ models)
    {members : List TypeRef} (hk : m.kind = .union members) {docs : List String}
    {r : Option String × String} :
    r ∈ (unionItems (.ofModels models) m.name docs).value.flatMap Item.models ↔
      ∃ t ∈ members, r ∈ ((ModelSet.ofModels models).scope.type t).models := by
  simp only [unionItems, get?_unions hd hm hk, Option.getD_some]
  split
  · rename_i hnone
    simp only [Logged.value_bind, Logged.value_pure, List.flatMap_singleton, Item.models,
      Item.types, anyValue, Ty.models, List.not_mem_nil, false_iff]
    rintro ⟨t,ht,_⟩
    obtain ⟨v,hv,_⟩ := UnionVariant.exists_variant (.ofModels models) m.name ht
    rw [hnone] at hv
    exact absurd hv List.not_mem_nil
  · rename_i vs _
    simp only [Logged.value_pure, List.flatMap_singleton, Item.models, Item.types,
      List.flatMap_map, List.flatMap_assoc, Option.toList_some, models_boxedIf, List.mem_flatMap]
    constructor
    · rintro ⟨v,hv,hr⟩
      exact ⟨v.member,(UnionVariant.mem_ofMembers hv).1,hr⟩
    · rintro ⟨t,ht,hr⟩
      obtain ⟨v,hv,rfl⟩ := UnionVariant.exists_variant (.ofModels models) m.name ht
      exact ⟨v,hv,hr⟩

/-- Whatever a declaration writes is a model of the same directory: its own, or one that counts as
mentioned and is known. -/
theorem mentioned_of_mem_models (hd : (models.map (·.name)).Nodup) {m : Model} (hm : m ∈ models)
    {r : Option String × String}
    (h : r ∈ (declarations (.ofModels models) m).value.flatMap Item.models) :
    r.1 = none ∧ (r.2 = m.name ∨ r.2 ∈ mentioned (.ofModels models) m ∧
      (ModelSet.ofModels models).scope.knows r.2 = true) := by
  unfold declarations at h
  cases hk : m.kind with
  | record rec =>
    simp only [hk, Logged.value_pure] at h
    rcases mem_models_recordItems.mp h with ⟨f,hf,hr⟩ | ⟨_,_,rfl⟩ | ⟨u,hu,i,hi,hr⟩
    · obtain ⟨hs,hn,hknown⟩ := mem_models_type.mp hr
      refine ⟨hs,.inr ⟨?_,hknown⟩⟩
      simp only [mentioned, hk]
      exact List.mem_append_left _ (List.mem_flatMap.mpr ⟨f,hf,hn⟩)
    · exact ⟨rfl,.inl rfl⟩
    · obtain ⟨hunion,hrefs⟩ := unionImpl?_eq_some hi
      rw [hrefs] at hr
      simp only [List.mem_cons, List.not_mem_nil, or_false] at hr
      rcases hr with rfl | rfl | rfl
      · exact ⟨rfl,.inl rfl⟩
      · obtain ⟨v,hv,hname,_⟩ := (contains_unions hd).mp hunion
        refine ⟨rfl,.inr ⟨?_,ModelScope.knows_iff.mpr ⟨v,hv,hname⟩⟩⟩
        simp only [mentioned, hk]
        exact List.mem_append_right _ (List.mem_filter.mpr ⟨hu,hunion⟩)
      · exact ⟨rfl,.inl rfl⟩
  | enum values =>
    simp only [hk] at h
    rw [models_enumItems h]
    exact ⟨rfl,.inl rfl⟩
  | «alias» target =>
    simp only [hk, Logged.value_pure, List.flatMap_singleton, Item.models, Item.types] at h
    obtain ⟨hs,hn⟩ := mem_models_type.mp h
    exact ⟨hs,.inr (by simpa only [mentioned, hk] using hn)⟩
  | map value =>
    simp only [hk, Logged.value_pure, List.flatMap_singleton, Item.models, Item.types,
      Ty.models] at h
    obtain ⟨hs,hn⟩ := mem_models_type.mp h
    exact ⟨hs,.inr (by simpa only [mentioned, hk] using hn)⟩
  | union members =>
    simp only [hk] at h
    obtain ⟨t,ht,hr⟩ := (mem_models_unionItems hd hm hk).mp h
    obtain ⟨hs,hn,hknown⟩ := mem_models_type.mp hr
    refine ⟨hs,.inr ⟨?_,hknown⟩⟩
    simp only [mentioned, hk]
    exact List.mem_flatMap.mpr ⟨t,ht,hn⟩

/-- A model with a union among its unions converts into it. -/
theorem exists_unionImpl (hd : (models.map (·.name)).Nodup) (hl : Classify.Linked models)
    {m : Model} (hm : m ∈ models) {u : String} (hu : u ∈ m.implements) :
    ∃ i, unionImpl? (.ofModels models) m.name u = some i := by
  obtain ⟨v,hv,rfl,members,hk,hlists⟩ := (hl m hm u).mp hu
  obtain ⟨w,hw,hmember⟩ :=
    UnionVariant.exists_variant (.ofModels models) v.name hlists
  have hfind : (UnionVariant.ofMembers (.ofModels models) v.name members).find?
      (isVariantOf m.name) ≠ none := by
    intro hnone
    have hnot := List.find?_eq_none.mp hnone w hw
    simp [isVariantOf, hmember, TypeRef.directName?] at hnot
  obtain ⟨x,hx⟩ := Option.ne_none_iff_exists'.mp hfind
  simp only [unionImpl?, get?_unions hd hv hk, Option.bind_eq_bind, Option.bind_some, hx,
    Option.pure_def]
  exact ⟨_,rfl⟩

/-- Whatever counts as mentioned is written. -/
theorem mem_models_of_mentioned (hd : (models.map (·.name)).Nodup) (hl : Classify.Linked models)
    {m : Model} (hm : m ∈ models) {n : String} (hn : n ∈ mentioned (.ofModels models) m)
    (hknown : (ModelSet.ofModels models).scope.knows n = true) :
    (none,n) ∈ (declarations (.ofModels models) m).value.flatMap Item.models := by
  have htype {t : TypeRef} (ht : n ∈ t.names) :
      (none,n) ∈ ((ModelSet.ofModels models).scope.type t).models :=
    mem_models_type.mpr ⟨rfl,ht,hknown⟩
  unfold declarations
  cases hk : m.kind with
  | record rec =>
    simp only [mentioned, hk, List.mem_append, List.mem_flatMap, List.mem_filter] at hn
    simp only [Logged.value_pure]
    rcases hn with ⟨f,hf,hn⟩ | ⟨hu,_⟩
    · exact mem_models_recordItems.mpr (.inl ⟨f,hf,htype hn⟩)
    · obtain ⟨i,hi⟩ := exists_unionImpl hd hl hm hu
      refine mem_models_recordItems.mpr (.inr (.inr ⟨n,hu,i,hi,?_⟩))
      rw [(unionImpl?_eq_some hi).2]
      exact List.mem_cons_of_mem _ List.mem_cons_self
  | enum values => simp [mentioned, hk] at hn
  | «alias» target =>
    simp only [mentioned, hk] at hn
    simpa [Item.models, Item.types] using htype hn
  | map value =>
    simp only [mentioned, hk] at hn
    simpa [Item.models, Item.types, Ty.models] using htype hn
  | union members =>
    simp only [mentioned, hk, List.mem_flatMap] at hn
    obtain ⟨t,ht,hn⟩ := hn
    exact (mem_models_unionItems hd hm hk).mpr ⟨t,ht,htype hn⟩

/-! ## Imports -/

theorem imported_importItems (names : List String) :
    (importItems names).flatMap Item.imported = names := by
  cases names <;> simp [importItems, Item.imported]

theorem models_importItems (names : List String) :
    (importItems names).flatMap Item.models = [] := by
  cases names <;> rfl

theorem imported_declarations (s : ModelSet) (m : Model) :
    (declarations s m).value.flatMap Item.imported = [] := by
  obtain ⟨d,impls,he,hd⟩ := declarations_eq_cons s m
  have hown : d.imported = [] := by
    cases d <;> first | rfl | simp [Item.declared?] at hd
  have himpls : (impls.map Item.impl).flatMap Item.imported = [] := by
    simp [List.flatMap_map, Item.imported]
  rw [he, List.flatMap_cons, hown, himpls, List.append_nil]

theorem imported_fileOf (models : List Model) (named : String × Model) :
    (fileOf models named).module.imported = imports (.ofModels models) named.2 := by
  rw [Code.Module.imported, items_fileOf, List.flatMap_append, imported_importItems,
    imported_declarations, List.append_nil]

theorem models_fileOf (models : List Model) (named : String × Model) :
    (fileOf models named).module.models =
      (declarations (.ofModels models) named.2).value.flatMap Item.models := by
  rw [Code.Module.models, items_fileOf, List.flatMap_append, models_importItems, List.nil_append]

theorem declares_fileOf {models : List Model} {named : String × Model} {n : String} :
    (fileOf models named).module.Declares n ↔ n = named.2.name := by
  unfold Code.Module.Declares
  rw [items_fileOf]
  constructor
  · rintro ⟨i,hi,hn⟩
    rcases List.mem_append.mp hi with hi | hi
    · simp [declared?_importItems hi] at hn
    · exact eq_of_declared hi hn
  · rintro rfl
    obtain ⟨d,impls,he,hd⟩ := declarations_eq_cons (.ofModels models) named.2
    exact ⟨d,List.mem_append_right _ (he ▸ List.mem_cons_self),hd⟩

/-- The models that the file of a model names without a path. -/
def visibleNames (models : List Model) (m : Model) : List String :=
  m.name :: imports (.ofModels models) m

theorem visible_fileOf (models : List Model) (named : String × Model) :
    (fileOf models named).module.visible = visibleNames models named.2 := by
  have himports : (importItems (imports (.ofModels models) named.2)).filterMap Item.declared? = [] :=
    List.filterMap_eq_nil_iff.mpr fun _ => declared?_importItems
  obtain ⟨d,impls,he,hd⟩ := declarations_eq_cons (.ofModels models) named.2
  have himpls : (impls.map Item.impl).filterMap Item.declared? = [] := by
    rw [List.filterMap_map]
    exact List.filterMap_eq_nil_iff.mpr fun _ _ => rfl
  rw [Code.Module.visible, imported_fileOf, items_fileOf, List.filterMap_append, himports, he,
    List.filterMap_cons_some hd, himpls]
  rfl

/-- Types are declared by the models, each beside the names that its model's file knows. -/
theorem exists_declared_files_iff {a : String} {p : Item → List String → Prop} :
    (∃ f ∈ (files models).value, ∃ i ∈ f.module.items, i.declared? = some a ∧
      p i f.module.visible) ↔
    ∃ m ∈ models, m.name = a ∧ ∃ i ∈ (declarations (.ofModels models) m).value,
      i.declared? = some m.name ∧ p i (visibleNames models m) := by
  constructor
  · rintro ⟨f,hf,i,hi,hn,hp⟩
    obtain ⟨named,hm,rfl,rfl,hi⟩ := exists_fileOf_of_declared hf hi hn
    exact ⟨named.2,hm,rfl,i,hi,hn,visible_fileOf models named ▸ hp⟩
  · rintro ⟨m,hm,rfl,i,hi,hn,hp⟩
    obtain ⟨module,hz⟩ := exists_module hm
    refine ⟨fileOf models (module,m),?_,i,?_,hn,?_⟩
    · rw [value_files]
      exact List.mem_append_left _ (List.mem_map_of_mem hz)
    · rw [items_fileOf]
      exact List.mem_append_right _ hi
    · rw [visible_fileOf]
      exact hp

theorem mem_imports {s : ModelSet} {m : Model} {n : String} :
    n ∈ imports s m ↔ n ∈ mentioned s m ∧ n ≠ m.name ∧ s.scope.knows n = true := by
  simp [imports]

theorem resolved_fileOf (hd : (models.map (·.name)).Nodup) (hl : Classify.Linked models)
    {named : String × Model} (hm : named.2 ∈ models) :
    (fileOf models named).module.Resolved where
  reaches r hr := by
    rw [models_fileOf] at hr
    obtain ⟨hs,hn⟩ := mentioned_of_mem_models hd hm hr
    refine ⟨hs,?_⟩
    by_cases hown : r.2 = named.2.name
    · exact .inl (declares_fileOf.mpr hown)
    · rw [imported_fileOf]
      obtain ⟨hn,hknown⟩ := hn.resolve_left hown
      exact .inr (mem_imports.mpr ⟨hn,hown,hknown⟩)
  writes n hn := by
    rw [imported_fileOf] at hn
    obtain ⟨hn,_,hknown⟩ := mem_imports.mp hn
    rw [models_fileOf]
    exact mem_models_of_mentioned hd hl hm hn hknown
  foreign n hn := by
    rw [imported_fileOf] at hn
    rw [declares_fileOf]
    exact (mem_imports.mp hn).2.1

/-! ## The index -/

theorem exported_indexFile (models : List Model) : (indexFile models).module.exported =
    (moduleNames models).zip (models.map (·.name)) := by
  simp [indexFile, index, Code.Module.exported, List.flatMap_map, Item.exported]

theorem imported_indexFile (models : List Model) : (indexFile models).module.imported = [] := by
  simp [indexFile, index, Code.Module.imported, List.flatMap_map, Item.imported]

theorem models_indexFile (models : List Model) : (indexFile models).module.models = [] := by
  simp [indexFile, index, Code.Module.models, List.flatMap_map, Item.models, Item.types]

theorem not_declares_indexFile (models : List Model) (n : String) :
    ¬ (indexFile models).module.Declares n := by
  rintro ⟨i,hi,hn⟩
  simp only [indexFile, index, List.mem_append, List.mem_map] at hi
  rcases hi with ⟨_,_,rfl⟩ | ⟨_,_,rfl⟩ <;> simp [Item.declared?] at hn

/-- The last file, the index, exports a name once, from the module of the only file that declares
it. -/
def ExportedOnce (files : List Code.File) (n : String) : Prop :=
  ∃ own index, files = own ++ [index] ∧ index.path = "mod.rs" ∧
    (index.module.exported.map Prod.snd).count n = 1 ∧
    ∃ file ∈ files, ∃ module, (module,n) ∈ index.module.exported ∧ file.path = fileName module ∧
      ∀ other ∈ files, other.module.Declares n ↔ other = file

theorem exportedOnce_of_mem (hd : (models.map (·.name)).Nodup) {m : Model} (hm : m ∈ models) :
    ExportedOnce (files models).value m.name := by
  obtain ⟨module,hz⟩ := exists_module hm
  have hexported : (module,m.name) ∈ (indexFile models).module.exported := by
    rw [exported_indexFile, List.zip_map_right]
    exact List.mem_map.mpr ⟨_,hz,rfl⟩
  have honce : ((indexFile models).module.exported.map Prod.snd).count m.name = 1 := by
    rw [exported_indexFile, List.map_snd_zip (by simp [moduleNames])]
    exact List.count_eq_one_of_mem hd (List.mem_map_of_mem hm)
  refine ⟨_,_,value_files models,rfl,honce,fileOf models (module,m),?_,module,hexported,rfl,?_⟩
  · rw [value_files]
    exact List.mem_append_left _ (List.mem_map_of_mem hz)
  · intro other hother
    rw [value_files] at hother
    rcases List.mem_append.mp hother with hother | hother
    · obtain ⟨named,hz',rfl⟩ := List.mem_map.mp hother
      constructor
      · intro hn
        rw [List.inj_on_of_nodup_map (nodup_names_modules hd) hz' hz (declares_fileOf.mp hn).symm]
      · intro he
        rw [he]
        exact declares_fileOf.mpr rfl
    · rw [List.mem_singleton.mp hother]
      constructor
      · exact fun hn => absurd hn (not_declares_indexFile models _)
      · intro he
        rw [he]
        exact declares_fileOf.mpr rfl

/-! ## All files -/

theorem resolved_of_mem_files (hd : (models.map (·.name)).Nodup) (hl : Classify.Linked models)
    {f : Code.File} (hf : f ∈ (files models).value) : f.module.Resolved := by
  rw [value_files] at hf
  rcases List.mem_append.mp hf with hf | hf
  · obtain ⟨named,hz,rfl⟩ := List.mem_map.mp hf
    exact resolved_fileOf hd hl (List.of_mem_zip hz).2
  · rw [List.mem_singleton.mp hf]
    exact ⟨by simp [models_indexFile],by simp [imported_indexFile],by simp [imported_indexFile]⟩

theorem exists_model_of_mem_imported {f : Code.File} (hf : f ∈ (files models).value) {n : String}
    (hn : n ∈ f.module.imported) : ∃ m ∈ models, m.name = n := by
  rw [value_files] at hf
  rcases List.mem_append.mp hf with hf | hf
  · obtain ⟨named,_,rfl⟩ := List.mem_map.mp hf
    rw [imported_fileOf] at hn
    exact ModelScope.knows_iff.mp (mem_imports.mp hn).2.2
  · rw [List.mem_singleton.mp hf, imported_indexFile] at hn
    exact absurd hn List.not_mem_nil

end ClientGen.Sdk.DataTypes
