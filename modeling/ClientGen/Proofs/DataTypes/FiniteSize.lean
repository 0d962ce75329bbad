import ClientGen.Proofs.Containment.Closure
import ClientGen.Proofs.DataTypes.References
import ClientGen.Proofs.Passes

/-! # Data types of finite size

A field or a variant that refers to a model is stored out of line as soon as the model leads back to
the type that it is in. A built-in type is stored in place, but a file that knows a model of its
name means the model. So a record or a union is inside itself exactly when it leads to such a name,
and the model of this name leads back. Aliases store nothing out of line, so cycles of aliases alone
are not excluded here.
-/
namespace ClientGen

/-- Whether a model's values consist of parts that the generated type stores itself. -/
def ModelKind.isComposite : ModelKind → Bool
  | .record _ => true
  | .union _ => true
  | _ => false

/-- The types that the generated type of a model is written with. A union without members stands for
any value, an enumeration without texts for any text. -/
def ModelKind.written : ModelKind → List TypeRef
  | .record r => r.fields.map (·.type)
  | .union [] => [.any]
  | .union members => members
  | .alias target => [target]
  | .map value => [.map value]
  | .enum (.texts []) => [.text]
  | .enum (.texts _) => []
  | .enum (.integers _) => [.int64]
  | .enum (.numbers _) => [.float64]
  | .enum (.booleans _) => [.bool]

theorem ModelKind.named_mem_written {k : ModelKind} {n : String} :
    .named n ∈ k.written ↔ .named n ∈ k.parts := by
  cases k with
  | union members => cases members <;> simp [written, parts]
  | enum values =>
    cases values with
    | texts vs => cases vs <;> simp [written, parts]
    | _ => simp [written, parts]
  | _ => simp [written, parts]

namespace Sdk.DataTypes
open Code (Item Ty)
open Containment (InlineEdge)
open Relation (TransGen ReflTransGen)
variable {models : List Model}

/-! ## Declared types -/

/-- The model is declared with this type somewhere in it. -/
def DeclaredWith (s : ModelSet) (m : Model) (t : Ty) : Prop :=
  ∃ i ∈ (declarations s m).value, i.declared? = some m.name ∧ t ∈ i.types

section
variable {s : ModelSet} {m : Model} {t : Ty}

theorem declaredWith_iff {d : Item} {impls : List Code.Impl}
    (he : (declarations s m).value = d :: impls.map Item.impl) (hd : d.declared? = some m.name) :
    DeclaredWith s m t ↔ t ∈ d.types := by
  constructor
  · rintro ⟨i,hi,hn,ht⟩
    rw [he] at hi
    rcases List.mem_cons.mp hi with rfl | hi
    · exact ht
    · obtain ⟨_,_,rfl⟩ := List.mem_map.mp hi
      cases hn
  · intro ht
    exact ⟨d,he ▸ List.mem_cons_self,hd,ht⟩

theorem declaredWith_record {r : Record} (hk : m.kind = .record r) :
    DeclaredWith s m t ↔ ∃ f ∈ r.fields, fieldType s m.name f = t := by
  have he : ∃ fields, ∃ impls : List Code.Impl, (declarations s m).value =
      .struct ⟨docsOf m.description,[dataDerives],m.name,[],.fields fields⟩ ::
        impls.map Item.impl ∧ fields.map (·.type) = r.fields.map (fieldType s m.name) := by
    simp only [declarations, hk, Logged.value_pure, recordItems, toList_map_impl,
      List.cons_append, ← List.map_append]
    exact ⟨_,_,rfl,types_recordStruct s m.name r.fields⟩
  obtain ⟨fields,impls,he,htypes⟩ := he
  rw [declaredWith_iff he rfl, Item.types, Code.StructBody.types, htypes, List.mem_map]

theorem declaredWith_union {members : List TypeRef} (hd : (models.map (·.name)).Nodup)
    (hm : m ∈ models) (hk : m.kind = .union members) :
    DeclaredWith (.ofModels models) m t ↔ ∃ u ∈ m.kind.written,
      boxedIf ((Containment.ofModels models).cyclesBack u m.name)
        ((ModelSet.ofModels models).scope.type u) = t := by
  cases members with
  | nil =>
    have he : (declarations (.ofModels models) m).value =
        .alias ⟨docsOf m.description,m.name,anyValue⟩ :: [].map Item.impl := by
      simp only [declarations, unionItems, hk, get?_unions hd hm hk]
      rfl
    rw [declaredWith_iff he rfl, hk]
    simp only [Item.types, ModelKind.written, List.mem_singleton, exists_eq_left]
    exact eq_comm
  | cons u us =>
    cases hvs : UnionVariant.ofMembers (.ofModels models) m.name (u :: us) with
    | nil => exact absurd hvs (UnionVariant.ofMembers_ne_nil _ _ (List.cons_ne_nil u us))
    | cons w ws =>
      have he : (declarations (.ofModels models) m).value =
          .enum ⟨docsOf m.description,[dataDerives,serde [.word "untagged"]],m.name,
            (w :: ws).map fun v => ⟨[],[],v.name,some (boxedIf v.boxed
              ((ModelSet.ofModels models).scope.type v.member))⟩⟩ :: [].map Item.impl := by
        simp only [declarations, unionItems, hk, get?_unions hd hm hk, hvs]
        rfl
      rw [declaredWith_iff he rfl, hk, ← hvs]
      simp only [Item.types, List.flatMap_map, Option.toList_some, List.mem_flatMap,
        List.mem_singleton, ModelKind.written]
      constructor
      · rintro ⟨v,hv,rfl⟩
        obtain ⟨hmember,hboxed⟩ := UnionVariant.mem_ofMembers hv
        exact ⟨v.member,hmember,by rw [hboxed]⟩
      · rintro ⟨t,ht,rfl⟩
        obtain ⟨v,hv,rfl⟩ := UnionVariant.exists_variant (.ofModels models) m.name ht
        exact ⟨v,hv,by rw [(UnionVariant.mem_ofMembers hv).2]⟩

/-- Any other model is declared with its types as they are. -/
theorem declaredWith_of_simple (hk : m.kind.isComposite = false) :
    DeclaredWith s m t ↔ ∃ u ∈ m.kind.written, s.scope.type u = t := by
  have hone (d : Item) (impls : List Code.Impl) (u : TypeRef)
      (he : (declarations s m).value = d :: impls.map Item.impl)
      (hd : d.declared? = some m.name) (ht : d.types = [s.scope.type u]) :
      DeclaredWith s m t ↔ ∃ v ∈ [u], s.scope.type v = t := by
    rw [declaredWith_iff he hd, ht, List.mem_singleton]
    simp [eq_comm]
  cases hkind : m.kind with
  | record r => simp [hkind, ModelKind.isComposite] at hk
  | union members => simp [hkind, ModelKind.isComposite] at hk
  | «alias» target => exact hone _ [] target (by simp only [declarations, hkind]; rfl) rfl rfl
  | map value => exact hone _ [] (.map value) (by simp only [declarations, hkind]; rfl) rfl rfl
  | enum values =>
    cases values with
    | texts vs =>
      cases vs with
      | nil => exact hone _ [] .text (by simp only [declarations, hkind]; rfl) rfl rfl
      | cons v vs =>
        have he : ∃ variants, ∃ impls : List Code.Impl, (declarations s m).value =
            .enum ⟨docsOf m.description,[valueDerives true],m.name,variants⟩ ::
              impls.map Item.impl ∧ ∀ v ∈ variants, v.payload = none := by
          simp only [declarations, hkind]
          exact ⟨_,[_,_],rfl,List.forall_mem_map.mpr fun _ _ => rfl⟩
        obtain ⟨variants,impls,he,hnone⟩ := he
        rw [declaredWith_iff he rfl]
        simpa [Item.types, ModelKind.written] using fun v hv => by simp [hnone v hv]
    | integers vs => exact hone _ [_] .int64 (by simp only [declarations, hkind]; rfl) rfl rfl
    | numbers vs => exact hone _ [_] .float64 (by simp only [declarations, hkind]; rfl) rfl rfl
    | booleans vs => exact hone _ [_] .bool (by simp only [declarations, hkind]; rfl) rfl rfl

end

/-! ## Values held in place -/

theorem inPlace?_read_boxedIf {names : List String} {boxed : Bool} {t : Ty} {n : String} :
    ((boxedIf boxed t).read names).inPlace? = some n ↔
      boxed = false ∧ (t.read names).inPlace? = some n := by
  cases boxed <;> simp [boxedIf, Ty.read, Ty.inPlace?]

theorem inPlace?_read_fieldType {names : List String} {s : ModelSet} {owner : String} {f : Field}
    {n : String} : ((fieldType s owner f).read names).inPlace? = some n ↔
      s.containment.cyclesBack f.type owner = false ∧
        ((s.scope.type f.type).read names).inPlace? = some n := by
  rw [← inPlace?_read_boxedIf, fieldType]
  split
  · rw [Ty.read, Ty.inPlace?]
  · rfl

/-- A model is declared with a value of `b` in place exactly if one of its types is read as `b`, and
is none that a record or a union stores out of line. -/
theorem exists_declaredWith_inPlace?_iff (hd : (models.map (·.name)).Nodup) {m : Model}
    (hm : m ∈ models) {names : List String} {b : String} :
    (∃ t, DeclaredWith (.ofModels models) m t ∧ (t.read names).inPlace? = some b) ↔
      ∃ u ∈ m.kind.written,
        (m.kind.isComposite = true → (Containment.ofModels models).cyclesBack u m.name = false) ∧
          (((ModelSet.ofModels models).scope.type u).read names).inPlace? = some b := by
  cases hk : m.kind with
  | record r =>
    simp only [declaredWith_record hk, exists_exists_and_eq_and, inPlace?_read_fieldType,
      ModelKind.written, ModelKind.isComposite, List.mem_map, forall_const]
    rfl
  | union members =>
    simp only [declaredWith_union hd hm hk, exists_exists_and_eq_and, inPlace?_read_boxedIf, hk,
      ModelKind.isComposite, forall_const]
  | _ =>
    simp only [declaredWith_of_simple (show m.kind.isComposite = false by rw [hk]; rfl), hk,
      exists_exists_and_eq_and, ModelKind.isComposite, Bool.false_eq_true, false_implies, true_and]

theorem holdsInPlace_files_iff {a b : String} : Code.HoldsInPlace (files models).value a b ↔
    ∃ m ∈ models, m.name = a ∧ ∃ t, DeclaredWith (.ofModels models) m t ∧
      (t.read (visibleNames models m)).inPlace? = some b := by
  rw [Code.holdsInPlace_iff, exists_declared_files_iff
    (p := fun i names => ∃ t ∈ i.types, (t.read names).inPlace? = some b)]
  refine exists_congr fun m => and_congr_right fun _ => and_congr_right fun _ => ?_
  constructor
  · rintro ⟨i,hi,hn,t,ht,hb⟩
    exact ⟨t,⟨i,hi,hn,ht⟩,hb⟩
  · rintro ⟨t,⟨i,hi,hn,ht⟩,hb⟩
    exact ⟨i,hi,hn,t,ht,hb⟩

/-! ## What stays in place -/

/-- A type that the first model is made of has the name of the second, which its file knows. -/
def Captures (models : List Model) (a b : String) : Prop :=
  ∃ m ∈ models, m.name = a ∧ b ∈ visibleNames models m ∧
    ∃ u ∈ m.kind.written, (ModelScope.ofModels models none).bareName? u = some b

/-- A part that no record and no union stores out of line. -/
def Uncut (models : List Model) (a b : String) : Prop :=
  InlineEdge models a b ∧ ∀ m ∈ models, m.name = a → m.kind.isComposite = true →
    ¬ ReflTransGen (InlineEdge models) b a

/-- A value of the second model is kept in place within one of the first. -/
inductive Stays (models : List Model) (a b : String) : Prop
  | part (h : Uncut models a b)
  | captured (h : Captures models a b)

/-- Only references to models are stored out of line. -/
theorem cyclesBack_of_bareName? {m : Model} (hm : m ∈ models) {u : TypeRef} {n : String}
    (hn : (ModelScope.ofModels models none).bareName? u = some n) :
    (Containment.ofModels models).cyclesBack u m.name = false := by
  rw [Bool.eq_false_iff, ne_eq, Containment.cyclesBack_iff]
  rintro ⟨k,rfl,hway⟩
  have hknown : (ModelScope.ofModels models none).knows k = true := by
    rw [ModelScope.knows_iff]
    rcases Relation.reflTransGen_iff_eq_or_transGen.mp hway with rfl | hway
    · exact ⟨m,hm,rfl⟩
    · obtain ⟨b,hb,_⟩ := Relation.TransGen.head'_iff.mp hway
      exact List.mem_map.mp hb.source_mem
  simp [ModelScope.bareName?, hknown] at hn

theorem inlineEdge_iff_exists {a b : String} : InlineEdge models a b ↔
    ∃ m ∈ models, m.name = a ∧ .named b ∈ m.kind.written ∧
      (ModelScope.ofModels models none).knows b = true := by
  rw [Containment.inlineEdge_iff, Containment.mem_heldBy, ModelScope.knows_iff]
  simp only [ModelKind.named_mem_written, Containment.names, List.mem_map]
  tauto

/-- The files hold in place what stays. -/
theorem holdsInPlace_files (hd : (models.map (·.name)).Nodup) {a b : String} :
    Code.HoldsInPlace (files models).value a b ↔ Stays models a b := by
  rw [holdsInPlace_files_iff]
  constructor
  · rintro ⟨m,hm,rfl,hdecl⟩
    obtain ⟨u,hu,hback,hb⟩ := (exists_declaredWith_inPlace?_iff hd hm).mp hdecl
    rcases ModelScope.inPlace?_read_type.mp hb with ⟨rfl,hknown⟩ | ⟨hbare,hvisible⟩
    · -- what a record or a union stores in place was not found to lead back
      refine .part ⟨inlineEdge_iff_exists.mpr ⟨m,hm,rfl,hu,hknown⟩,fun n hn hname hk hway => ?_⟩
      cases eq_of_name_eq hd hn hm hname
      have hcut := Containment.cyclesBack_iff.mpr ⟨b,rfl,hway⟩
      rw [hback hk] at hcut
      cases hcut
    · exact .captured ⟨m,hm,rfl,hvisible,u,hu,hbare⟩
  · rintro (⟨hedge,huncut⟩ | ⟨m,hm,rfl,hvisible,u,hu,hbare⟩)
    · obtain ⟨m,hm,rfl,hu,hknown⟩ := inlineEdge_iff_exists.mp hedge
      refine ⟨m,hm,rfl,(exists_declaredWith_inPlace?_iff hd hm).mpr ⟨_,hu,fun hk => ?_,?_⟩⟩
      · rw [Bool.eq_false_iff, ne_eq, Containment.cyclesBack_iff]
        rintro ⟨_,he,hway⟩
        cases he
        exact huncut m hm rfl hk hway
      · exact ModelScope.inPlace?_read_type.mpr (.inl ⟨rfl,hknown⟩)
    · exact ⟨m,hm,rfl,(exists_declaredWith_inPlace?_iff hd hm).mpr
        ⟨u,hu,fun _ => cyclesBack_of_bareName? hm hbare,
          ModelScope.inPlace?_read_type.mpr (.inr ⟨hbare,hvisible⟩)⟩⟩

/-- A way has parts only, or leads through a captured name. -/
theorem transGen_uncut_or_captures {a b : String} (h : TransGen (Stays models) a b) :
    TransGen (Uncut models) a b ∨ ∃ c d, Captures models c d ∧
      ReflTransGen (Stays models) a c ∧ ReflTransGen (Stays models) d b := by
  induction h with
  | single hstep =>
    cases hstep with
    | part h => exact .inl (.single h)
    | captured h => exact .inr ⟨_,_,h,.refl,.refl⟩
  | tail hway hstep ih =>
    rcases ih with hparts | ⟨c,d,hc,hto,hfrom⟩
    · cases hstep with
      | part h => exact .inl (hparts.tail h)
      | captured h => exact .inr ⟨_,_,h,hway.to_reflTransGen,.refl⟩
    · exact .inr ⟨c,d,hc,hto,hfrom.tail hstep⟩

/-- Parts alone never lead a record or a union back to itself. -/
theorem not_transGen_uncut {m : Model} (hm : m ∈ models) (hk : m.kind.isComposite = true) :
    ¬ TransGen (Uncut models) m.name m.name := by
  intro h
  obtain ⟨b,hfirst,hrest⟩ := Relation.TransGen.head'_iff.mp h
  exact hfirst.2 m hm rfl hk (Relation.ReflTransGen.mono (fun _ _ h => h.1) _ _ hrest)

/-- A record or a union is inside itself exactly when it leads to a captured name, and the model of
this name leads back. -/
theorem composite_inside_itself_iff (hd : (models.map (·.name)).Nodup) {m : Model}
    (hm : m ∈ models) (hk : m.kind.isComposite = true) :
    TransGen (Code.HoldsInPlace (files models).value) m.name m.name ↔
      ∃ a b, Captures models a b ∧ ReflTransGen (Stays models) m.name a ∧
        ReflTransGen (Stays models) b m.name := by
  have he : Code.HoldsInPlace (files models).value = Stays models :=
    funext fun _ => funext fun _ => propext (holdsInPlace_files hd)
  rw [he]
  constructor
  · intro h
    exact (transGen_uncut_or_captures h).resolve_left (not_transGen_uncut hm hk)
  · rintro ⟨a,b,hc,hto,hfrom⟩
    exact (Relation.TransGen.tail' hto (.captured hc)).trans_left hfrom

def recordOf (name : String) (parts : List TypeRef) : Model :=
  ⟨name,name,none,.record (.ofFields (parts.map fun t => ⟨"part",t,false,none,none⟩)),[]⟩

def either : Model :=
  ⟨"Either","either",none,.union [.text,.named "Node"],[]⟩

/-- A record that leads back to itself at once, and through an alias and a union. -/
def entangled : List Model :=
  [recordOf "Node" [.named "Node",.named "Link",.array (.named "Node"),.named "Gone"],
    ⟨"Link","link",none,.alias (.named "Either"),[]⟩,either]

theorem composite_inside_itself_iff_entangled :
    (entangled.map (·.name)).Nodup ∧ either ∈ entangled ∧ either.kind.isComposite = true ∧
      ¬ TransGen (Code.HoldsInPlace (files entangled).value) either.name either.name := by
  refine ⟨by decide,by decide,rfl,fun h => ?_⟩
  obtain ⟨_,n,⟨m,hm,_,hvisible,u,hu,hbare⟩,_⟩ :=
    (composite_inside_itself_iff (by decide) (by decide) rfl).mp h
  have hfree : ∀ m ∈ entangled, ∀ u ∈ m.kind.written,
      ∀ n ∈ (ModelScope.ofModels entangled none).bareName? u, n ∉ visibleNames entangled m := by
    decide +kernel
  exact hfree m hm u hu n hbare hvisible

end Sdk.DataTypes

namespace Generator
open Relation (TransGen)

/-- A schema called `String`, whose values have a text. -/
def labelled : Generator where
  document :=
    { paths := .empty
      components := some ⟨.ofList [("String",.object [("type",.text "object"),
        ("properties",.object [("text",.object [("type",.text "string")])])])],.empty,.empty⟩ }
  config := defaultConfig
  paths := .default

/-- The text is read as another value of the schema, which is stored in place. -/
theorem labelled_inside_itself : (labelled.models.value.map (·.name)).Nodup ∧
    ∃ m ∈ labelled.models.value, m.kind.isComposite = true ∧
      TransGen (Code.HoldsInPlace (labelled.files .models).value) m.name m.name := by
  have hrecord : ∃ m ∈ labelled.models.value, m.name = "String" ∧ m.kind.isComposite = true ∧
      .text ∈ m.kind.written := by
    decide +kernel
  obtain ⟨m,hm,hname,hk,htext⟩ := hrecord
  refine ⟨labelled.nodup_models,m,hm,hk,.single ?_⟩
  rw [value_files_models, Sdk.DataTypes.holdsInPlace_files labelled.nodup_models, hname]
  exact .captured ⟨m,hm,hname,hname ▸ List.mem_cons_self,.text,htext,rfl⟩

end Generator
end ClientGen
