import ClientGen.Proofs.Code.Builtins
import ClientGen.Proofs.DataTypes.Conversions
import ClientGen.Proofs.DataTypes.FiniteSize

/-! # Built-in types in data types

The file of a model names built-in types for what its values are made of, for what may be absent and
for what is stored out of line. A model with one of these names takes its place wherever it is
declared or imported.
-/
namespace ClientGen

/-- Whatever does not hold of the type of any value is found in a union's members alone. -/
theorem ModelKind.exists_mem_written_union {members : List TypeRef} {p : TypeRef → Prop}
    (h : ¬ p .any) : (∃ t ∈ (ModelKind.union members).written, p t) ↔ ∃ t ∈ members, p t := by
  cases members <;> simp [written, h]

/-- The other models in the types of a model, and for a record the unions that it converts into. -/
def Model.Mentions (m : Model) (n : String) : Prop :=
  (∃ t ∈ m.kind.written, n ∈ t.names) ∨ (∃ r, m.kind = .record r) ∧ n ∈ m.implements

/-- The file of the model has to name the built-in type. -/
inductive Model.Needs (c : Containment) (m : Model) : String → Prop
  | written {t : TypeRef} {b : String} :
    t ∈ m.kind.written → b ∈ t.builtins → Needs c m b
  | nullable {r : Record} {f : Field} :
    m.kind = .record r → f ∈ r.fields → f.isNullable = true → Needs c m "Option"
  | boxed {t : TypeRef} : m.kind.isComposite = true → t ∈ m.kind.parts →
    c.cyclesBack t m.name = true → Needs c m "Box"
  | converted {r : Record} {u : String} : m.kind = .record r → u ∈ m.implements →
    c.cyclesBack (.named m.name) u = true → Needs c m "Box"

/-- Only records and unions add anything to the types that they are written with. -/
theorem Model.needs_iff_of_simple {c : Containment} {m : Model} {b : String}
    (h : m.kind.isComposite = false) :
    m.Needs c b ↔ b ∈ m.kind.written.flatMap TypeRef.builtins := by
  have hrecord {r : Record} (hk : m.kind = .record r) : False := by
    rw [hk] at h
    exact Bool.noConfusion h
  rw [List.mem_flatMap]
  constructor
  · intro hn
    cases hn with
    | written ht hb => exact ⟨_,ht,hb⟩
    | nullable hk _ _ => exact (hrecord hk).elim
    | boxed hc _ _ => exact absurd hc (by rw [h]; exact Bool.noConfusion)
    | converted hk _ _ => exact (hrecord hk).elim
  · rintro ⟨t,ht,hb⟩
    exact .written ht hb

namespace Sdk.DataTypes
open Code (Item Ty Meta)
variable {models : List Model} {b : String}

/-! ## What declarations name -/

theorem builtins_boxedIf (boxed : Bool) (t : Ty) :
    (boxedIf boxed t).builtins = (if boxed then ["Box"] else []) ++ t.builtins := by
  cases boxed <;> rfl

theorem builtins_fieldSettings (f : Field) : (serde (fieldSettings f)).builtins =
    if f.isNullable then ["Option"] else [] := by
  unfold fieldSettings
  split
  · rfl
  · split <;> rfl

theorem mem_builtins_fieldCode {s : ModelSet} {owner : String} {f : Field} {name : String} :
    b ∈ (fieldCode s owner f name).builtins ↔ f.isNullable = true ∧ b = "Option" ∨
      s.containment.cyclesBack f.type owner = true ∧ b = "Box" ∨ b ∈ f.type.builtins := by
  have htype : (fieldType s owner f).builtins = (if f.isNullable then ["Option"] else []) ++
      ((if s.containment.cyclesBack f.type owner then ["Box"] else []) ++ f.type.builtins) := by
    rw [← ModelScope.builtins_type s.scope, ← builtins_boxedIf]
    unfold fieldType
    split <;> rfl
  simp only [Code.Field.builtins, fieldCode, List.flatMap_singleton, builtins_fieldSettings, htype]
  cases f.isNullable <;> cases s.containment.cyclesBack f.type owner <;> simp

theorem builtins_conversionImpl (owner union : String) (v : UnionVariant) :
    (Item.impl (conversionImpl owner union v)).builtins = if v.boxed then ["Box"] else [] := by
  have hfunction (value : Code.Expr) :
      (Code.fromFunction owner v.name value).builtins = value.builtins := by
    have hvariant : Code.builtinsOf ("Self::" ++ v.name) = [] := Code.builtinsOf_self v.name
    have hself : Code.builtinsOf "Self" = [] := rfl
    simp [Code.Function.builtins, Code.fromFunction, Code.Function.public, Ty.builtins,
      Code.Stmt.builtinsAll, Code.Stmt.builtins, Code.Expr.builtins, Code.Expr.words,
      Code.exprWords, Code.Word.builtins, hvariant, hself]
  have hmembers : (Item.impl (conversionImpl owner union v)).builtins =
      (Code.fromFunction owner v.name
        (if v.boxed then .call "Box::new" [.path "value"] else .path "value")).builtins := by
    simp [Item.builtins, conversionImpl, Code.Member.builtins, Ty.builtins, Ty.builtinsAll]
    rfl
  rw [hmembers, hfunction]
  split <;> rfl

theorem flatMap_map_eq_nil {α β : Type} {f : α → β} {g : β → List String} (h : ∀ a, g (f a) = [])
    (as : List α) : (as.map f).flatMap g = [] := by
  rw [List.flatMap_map]
  exact List.flatMap_eq_nil_iff.mpr fun a _ => h a

theorem builtins_valueDerives (totalEquality : Bool) :
    (valueDerives totalEquality).builtins = [] := by
  cases totalEquality <;> rfl

/-- A newtype is written with its base alone, and so is the function that gives its value. -/
theorem builtins_constantItems (name : String) (c : Constants) (docs : List String) :
    (constantItems name c docs).flatMap Item.builtins =
      Code.builtinsOf c.base ++ Code.builtinsOf c.base := by
  have hderives := builtins_valueDerives c.totalEquality
  have hvalue : Code.builtinsOf "self.0" = [] := rfl
  simp only [constantItems, List.flatMap_cons, List.flatMap_nil, Item.builtins, hderives,
    List.flatMap_append]
  rw [flatMap_map_eq_nil]
  · simp [Code.StructBody.builtins, Ty.builtins, Code.Member.builtins, Code.Function.builtins,
      Code.Function.public, Code.Stmt.builtinsAll, Code.Stmt.builtins, Code.Expr.builtins,
      Code.Expr.words, Code.Word.builtins, hvalue]
    rfl
  · exact fun _ => rfl

theorem builtins_textEnumItems (name : String) (texts docs : List String) :
    (textEnumItems name texts docs).flatMap Item.builtins = [] := by
  have harms (arms : List (String × Code.Expr))
      (h : ∀ a ∈ arms, ∃ v wire, a = ("Self::" ++ v,.str wire)) :
      ∀ w ∈ Code.armWords arms, w.builtins = [] := by
    induction arms with
    | nil => simp [Code.armWords]
    | cons arm rest ih =>
      obtain ⟨⟨v,wire,rfl⟩,hrest⟩ := List.forall_mem_cons.mp h
      have hpath : (Code.Word.path ("Self::" ++ v)).builtins = [] := Code.builtinsOf_self v
      rw [Code.armWords, Code.Expr.words]
      exact List.forall_mem_cons.mpr ⟨hpath,ih hrest⟩
  refine List.flatMap_eq_nil_iff.mpr ?_
  intro i hi
  simp only [textEnumItems, List.mem_cons, List.not_mem_nil, or_false] at hi
  rcases hi with rfl | rfl | rfl
  · simp only [Item.builtins]
    rw [flatMap_map_eq_nil]
    · rfl
    · exact fun _ => rfl
  · have hself : Code.builtinsOf "self" = [] := rfl
    have hresult : staticText.builtins = [] := rfl
    simp [Item.builtins, Ty.builtins, Code.Member.builtins, Code.Function.builtins,
      Code.Function.public, Code.Stmt.builtinsAll, Code.Stmt.builtins, Code.Expr.builtins,
      Code.Expr.words, Code.Word.builtins, hself, hresult]
    refine harms _ fun a ha => ?_
    obtain ⟨e,_,rfl⟩ := List.mem_map.mp ha
    exact ⟨e.1,e.2,rfl⟩
  · rfl

theorem builtins_enumItems (name : String) (values : EnumValues) (docs : List String) :
    (enumItems name values docs).value.flatMap Item.builtins =
      (ModelKind.enum values).written.flatMap TypeRef.builtins := by
  have hconstants (c : Constants) (hc : Code.builtinsOf c.base = []) :
      (constantItems name c docs).flatMap Item.builtins = [] := by
    rw [builtins_constantItems, hc, List.append_nil]
  cases values with
  | texts vs =>
    cases vs with
    | nil => rfl
    | cons v vs => exact builtins_textEnumItems name (v :: vs) docs
  | integers vs => exact hconstants _ (show Code.builtinsOf "i64" = [] from rfl)
  | numbers vs => exact hconstants _ (show Code.builtinsOf "f64" = [] from rfl)
  | booleans vs => exact hconstants _ (show Code.builtinsOf "bool" = [] from rfl)

/-! ## What files name -/

theorem mem_builtins_unionImpls (hd : (models.map (·.name)).Nodup) (hl : Classify.Linked models)
    {m : Model} (hm : m ∈ models) :
    b ∈ ((m.implements.filterMap (unionImpl? (.ofModels models) m.name)).map Item.impl).flatMap
        Item.builtins ↔
      ∃ u ∈ m.implements, (Containment.ofModels models).cyclesBack (.named m.name) u = true ∧
        b = "Box" := by
  have hconversion {u : String} (hu : u ∈ m.implements) : ∃ i,
      unionImpl? (.ofModels models) m.name u = some i ∧ (Item.impl i).builtins =
        if (Containment.ofModels models).cyclesBack (.named m.name) u then ["Box"] else [] := by
    obtain ⟨i,hi⟩ := exists_unionImpl hd hl hm hu
    obtain ⟨vs,v,hvs,hfind,rfl⟩ := unionImpl?_iff.mp hi
    obtain ⟨n,_,members,_,rfl,rfl⟩ := exists_union_of_get? hvs
    have hmember : v.member = .named m.name := by
      have hdirect := List.find?_some hfind
      simp only [isVariantOf, beq_iff_eq] at hdirect
      cases ht : v.member <;> simp_all [TypeRef.directName?]
    refine ⟨_,hi,?_⟩
    rw [builtins_conversionImpl, (UnionVariant.mem_ofMembers (List.mem_of_find?_eq_some hfind)).2,
      hmember]
  simp only [List.flatMap_map, List.mem_flatMap, List.mem_filterMap]
  constructor
  · rintro ⟨i,⟨u,hu,hi⟩,hb⟩
    obtain ⟨i',hi',hbuiltins⟩ := hconversion hu
    cases hi.symm.trans hi'
    rw [hbuiltins, List.mem_ite_nil_right] at hb
    exact ⟨u,hu,hb.1,List.mem_singleton.mp hb.2⟩
  · rintro ⟨u,hu,hback,rfl⟩
    obtain ⟨i,hi,hbuiltins⟩ := hconversion hu
    refine ⟨i,⟨u,hu,hi⟩,?_⟩
    rw [hbuiltins, if_pos hback]
    exact List.mem_singleton_self _

theorem mem_builtins_recordStruct {s : ModelSet} {owner : String} {r : Record}
    {docs : List String} :
    b ∈ (Item.struct ⟨docs,[dataDerives],owner,[],.fields
        ((r.fields.zip (fieldNames r.fields)).map fun (f,name) =>
          fieldCode s owner f name)⟩).builtins ↔
      ∃ f ∈ r.fields, f.isNullable = true ∧ b = "Option" ∨
        s.containment.cyclesBack f.type owner = true ∧ b = "Box" ∨ b ∈ f.type.builtins := by
  have hderives : dataDerives.builtins = [] := rfl
  have hl : r.fields.length ≤ (fieldNames r.fields).length := by simp [fieldNames]
  simp only [Item.builtins, List.flatMap_singleton, hderives, List.nil_append,
    Code.StructBody.builtins, List.flatMap_map, List.mem_flatMap, mem_builtins_fieldCode]
  conv_rhs => rw [← List.map_fst_zip hl]
  simp only [List.mem_map, Prod.exists, exists_and_right, exists_eq_right]

theorem mem_builtins_variantCode {s : ModelSet} {v : UnionVariant} :
    b ∈ (variantCode s v).builtins ↔ v.boxed = true ∧ b = "Box" ∨ b ∈ v.member.builtins := by
  simp only [Code.Variant.builtins, variantCode, List.flatMap_nil, List.nil_append,
    Option.toList_some, List.flatMap_singleton, builtins_boxedIf, ModelScope.builtins_type,
    List.mem_append, List.mem_ite_nil_right, List.mem_singleton]

theorem mem_builtins_unionItems (hd : (models.map (·.name)).Nodup) {m : Model} (hm : m ∈ models)
    {members : List TypeRef} (hk : m.kind = .union members) {docs : List String} :
    b ∈ (unionItems (.ofModels models) m.name docs).value.flatMap Item.builtins ↔
      ∃ t ∈ members, (Containment.ofModels models).cyclesBack t m.name = true ∧ b = "Box" ∨
        b ∈ t.builtins := by
  have hattrs : [dataDerives,serde [.word "untagged"]].flatMap Meta.builtins = [] := rfl
  have hvariants : b ∈ (unionItems (.ofModels models) m.name docs).value.flatMap Item.builtins ↔
      ∃ v ∈ UnionVariant.ofMembers (.ofModels models) m.name members,
        b ∈ (variantCode (.ofModels models) v).builtins := by
    simp only [unionItems, get?_unions hd hm hk, Option.getD_some]
    split
    · rename_i hnone
      rw [hnone]
      exact iff_of_false List.not_mem_nil (by simp)
    · simp only [Logged.value_pure, List.flatMap_singleton, Item.builtins, hattrs,
        List.nil_append, List.flatMap_map, List.mem_flatMap]
      rfl
  rw [hvariants]
  simp only [mem_builtins_variantCode]
  constructor
  · rintro ⟨v,hv,hb⟩
    obtain ⟨ht,hbox⟩ := UnionVariant.mem_ofMembers hv
    rw [hbox] at hb
    exact ⟨v.member,ht,hb⟩
  · rintro ⟨t,ht,hb⟩
    obtain ⟨v,hv,rfl⟩ := UnionVariant.exists_variant (.ofModels models) m.name ht
    rw [← (UnionVariant.mem_ofMembers hv).2] at hb
    exact ⟨v,hv,hb⟩

/-- The declarations of a model name exactly the built-in types that it needs. -/
theorem mem_builtins_declarations (hd : (models.map (·.name)).Nodup)
    (hl : Classify.Linked models) {m : Model} (hm : m ∈ models) :
    b ∈ (declarations (.ofModels models) m).value.flatMap Item.builtins ↔
      m.Needs (.ofModels models) b := by
  unfold declarations
  cases hk : m.kind with
  | record r =>
    have hdiscriminator : ((r.discriminator.map fun d =>
        Item.impl (discriminatorImpl m.name d)).toList).flatMap Item.builtins = [] := by
      cases r.discriminator <;> rfl
    simp only [Logged.value_pure, recordItems, List.cons_append, List.flatMap_cons,
      List.flatMap_append, hdiscriminator, List.nil_append, List.mem_append]
    rw [mem_builtins_recordStruct, mem_builtins_unionImpls hd hl hm]
    constructor
    · rintro (⟨f,hf,⟨hnull,rfl⟩ | ⟨hback,rfl⟩ | hb⟩ | ⟨u,hu,hback,rfl⟩)
      · exact .nullable hk hf hnull
      · exact .boxed (by rw [hk]; rfl) (by rw [hk]; exact List.mem_map_of_mem hf) hback
      · exact .written (by rw [hk]; exact List.mem_map_of_mem hf) hb
      · exact .converted hk hu hback
    · intro h
      cases h with
      | written ht hb =>
        rw [hk] at ht
        obtain ⟨f,hf,rfl⟩ := List.mem_map.mp ht
        exact .inl ⟨f,hf,.inr (.inr hb)⟩
      | nullable hk' hf hnull =>
        cases hk.symm.trans hk'
        exact .inl ⟨_,hf,.inl ⟨hnull,rfl⟩⟩
      | boxed _ ht hback =>
        rw [hk] at ht
        obtain ⟨f,hf,rfl⟩ := List.mem_map.mp ht
        exact .inl ⟨f,hf,.inr (.inl ⟨hback,rfl⟩)⟩
      | converted _ hu hback => exact .inr ⟨_,hu,hback,rfl⟩
  | union members =>
    have hwritten : (∃ t ∈ (ModelKind.union members).written, b ∈ t.builtins) ↔
        ∃ t ∈ members, b ∈ t.builtins :=
      ModelKind.exists_mem_written_union List.not_mem_nil
    rw [mem_builtins_unionItems hd hm hk]
    constructor
    · rintro ⟨t,ht,⟨hback,rfl⟩ | hb⟩
      · exact .boxed (by rw [hk]; rfl) (by rw [hk]; exact ht) hback
      · obtain ⟨u,hu,hb⟩ := hwritten.mpr ⟨t,ht,hb⟩
        exact .written (hk ▸ hu) hb
    · intro h
      cases h with
      | written ht hb =>
        obtain ⟨u,hu,hb⟩ := hwritten.mp ⟨_,hk ▸ ht,hb⟩
        exact ⟨u,hu,.inr hb⟩
      | nullable hk' _ _ => cases hk.symm.trans hk'
      | boxed _ ht hback =>
        rw [hk] at ht
        exact ⟨_,ht,.inl ⟨hback,rfl⟩⟩
      | converted hk' _ _ => cases hk.symm.trans hk'
  | enum values =>
    rw [Model.needs_iff_of_simple (by rw [hk]; rfl), hk, builtins_enumItems]
  | «alias» target =>
    rw [Model.needs_iff_of_simple (by rw [hk]; rfl), hk]
    simp only [Logged.value_pure, List.flatMap_singleton, Item.builtins, ModelScope.builtins_type,
      ModelKind.written]
  | map value =>
    rw [Model.needs_iff_of_simple (by rw [hk]; rfl), hk]
    simp only [Logged.value_pure, List.flatMap_singleton, Item.builtins, Ty.builtins,
      ModelScope.builtins_type, ModelKind.written, TypeRef.builtins]

/-! ## Names of models beside them -/

theorem mem_mentioned (hd : (models.map (·.name)).Nodup) (hl : Classify.Linked models)
    {m : Model} (hm : m ∈ models) {n : String} :
    n ∈ mentioned (.ofModels models) m ↔ m.Mentions n := by
  have hunion : n ∈ m.implements → (ModelSet.ofModels models).unions.contains n = true := by
    intro hn
    obtain ⟨v,hv,hname,members,hk,_⟩ := (hl m hm n).mp hn
    exact (contains_unions hd).mpr ⟨v,hv,hname,members,hk⟩
  unfold mentioned Model.Mentions
  cases hk : m.kind with
  | record r =>
    simp only [List.mem_append, List.mem_flatMap, List.mem_filter, ModelKind.written,
      List.mem_map, exists_exists_and_eq_and, and_iff_left_of_imp hunion]
    simp
  | enum values =>
    refine iff_of_false List.not_mem_nil ?_
    rintro (⟨t,ht,hn⟩ | ⟨⟨_,hrecord⟩,_⟩)
    · simp only [ModelKind.written] at ht
      split at ht <;> simp_all [TypeRef.names]
    · cases hrecord
  | union members =>
    have hwritten : (∃ t ∈ (ModelKind.union members).written, n ∈ t.names) ↔
        ∃ t ∈ members, n ∈ t.names :=
      ModelKind.exists_mem_written_union List.not_mem_nil
    simp [hwritten]
  | _ => simp [ModelKind.written, TypeRef.names]

/-- The file of a model declares its own name and imports the other models that it mentions. -/
theorem named_fileOf (hd : (models.map (·.name)).Nodup) (hl : Classify.Linked models)
    {named : String × Model} (hm : named.2 ∈ models) {n : String} :
    (fileOf models named).module.Declares n ∨ n ∈ (fileOf models named).module.imported ↔
      ∃ v ∈ models, v.name = n ∧ (v.name = named.2.name ∨ named.2.Mentions v.name) := by
  have hknown : (ModelSet.ofModels models).scope.knows n = true ↔ ∃ v ∈ models, v.name = n :=
    ModelScope.knows_iff
  rw [declares_fileOf, imported_fileOf, mem_imports, mem_mentioned hd hl hm, hknown]
  constructor
  · rintro (rfl | ⟨hn,_,v,hv,rfl⟩)
    · exact ⟨named.2,hm,rfl,.inl rfl⟩
    · exact ⟨v,hv,rfl,.inr hn⟩
  · rintro ⟨v,hv,rfl,hn⟩
    by_cases hown : v.name = named.2.name
    · exact .inl hown
    · exact .inr ⟨hn.resolve_left hown,hown,v,hv,rfl⟩

theorem uncaptured_fileOf (hd : (models.map (·.name)).Nodup) (hl : Classify.Linked models)
    {named : String × Model} (hm : named.2 ∈ models) :
    (fileOf models named).module.Uncaptured ↔ ∀ v ∈ models,
      v.name = named.2.name ∨ named.2.Mentions v.name →
        ¬ named.2.Needs (.ofModels models) v.name := by
  have hbuiltins (b : String) : b ∈ (fileOf models named).module.builtins ↔
      named.2.Needs (.ofModels models) b := by
    have himports : (importItems (imports (.ofModels models) named.2)).flatMap Item.builtins =
        [] := by
      unfold importItems
      split <;> rfl
    rw [Code.Module.builtins, items_fileOf, List.flatMap_append, himports, List.nil_append,
      mem_builtins_declarations hd hl hm]
  simp only [Code.Module.Uncaptured, ← not_or, hbuiltins, named_fileOf hd hl hm]
  constructor
  · intro h v hv hnamed hneeds
    exact h v.name hneeds ⟨v,hv,rfl,hnamed⟩
  · rintro h b hneeds ⟨v,hv,rfl,hnamed⟩
    exact h v hv hnamed hneeds

theorem uncaptured_indexFile (models : List Model) : (indexFile models).module.Uncaptured := by
  intro b hb
  simp [indexFile, index, Code.Module.builtins, List.flatMap_map, Item.builtins] at hb

theorem uncaptured_files (hd : (models.map (·.name)).Nodup) (hl : Classify.Linked models) :
    (∀ f ∈ (files models).value, f.module.Uncaptured) ↔ ∀ m ∈ models, ∀ v ∈ models,
      v.name = m.name ∨ m.Mentions v.name → ¬ m.Needs (.ofModels models) v.name := by
  simp only [value_files, List.forall_mem_append, List.forall_mem_singleton, List.forall_mem_map,
    uncaptured_indexFile, and_true]
  constructor
  · intro h m hm
    obtain ⟨module,hz⟩ := exists_module hm
    exact (uncaptured_fileOf hd hl hm).mp (h _ hz)
  · intro h named hz
    have hm := (List.of_mem_zip hz).2
    exact (uncaptured_fileOf hd hl hm).mpr (h _ hm)

end Sdk.DataTypes
end ClientGen
