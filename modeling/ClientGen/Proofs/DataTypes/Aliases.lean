import ClientGen.Proofs.Classify.Schemas
import ClientGen.Proofs.Code.Aliases
import ClientGen.Proofs.DataTypes.References

/-! # Aliases and maps

Both become type aliases, so one that leads back to itself has no expansion. The files have such a
cycle exactly when the models do. As the files are read there may be more of them, since an alias
also names the built-in types that it is written with.
-/
namespace ClientGen

/-- What a model that becomes a type alias stands for. Apart from aliases and maps these are unions
without members and enumerations without texts. -/
def ModelKind.aliased? : ModelKind → Option TypeRef
  | .union [] => some .any
  | .enum (.texts []) => some .text
  | k => k.meaning?

namespace Sdk.DataTypes
open Code (Item Ty)
open Relation (TransGen)
variable {models : List Model}

/-- Alias or map `a` mentions the name `b`, at any depth. -/
def Names (models : List Model) (a b : String) : Prop :=
  ∃ m ∈ models, m.name = a ∧ ∃ t, m.kind.meaning? = some t ∧ b ∈ t.names

/-- Alias or map `a` mentions alias or map `b`, at any depth. -/
def Mentions (models : List Model) (a b : String) : Prop :=
  Names models a b ∧ ∃ m ∈ models, m.name = b ∧ m.kind.meaning?.isSome = true

theorem acyclic_mentions_iff :
    (∀ a, ¬ TransGen (Mentions models) a a) ↔ ∀ a, ¬ TransGen (Names models) a a := by
  refine forall_congr' fun a => not_congr (Code.transGen_self_iff ?_ ?_).symm
  · exact fun _ _ h => h.1
  · rintro a b c h ⟨m,hm,hname,t,ht,_⟩
    exact ⟨h,m,hm,hname,Option.isSome_of_mem ht⟩

/-! ## Declared aliases -/

theorem alias_mem_declarations (hd : (models.map (·.name)).Nodup) {m : Model} (hm : m ∈ models)
    {x : Code.Alias} : Item.alias x ∈ (declarations (.ofModels models) m).value ↔
      ∃ t, m.kind.aliased? = some t ∧
        x = ⟨docsOf m.description,m.name,(ModelSet.ofModels models).scope.type t⟩ := by
  unfold declarations
  cases hk : m.kind with
  | record r => simp [recordItems, ModelKind.aliased?, ModelKind.meaning?]
  | enum values =>
    cases values with
    | texts vs =>
      cases vs <;> simp [enumItems, textEnumItems, ModelKind.aliased?, ModelKind.meaning?,
        ModelScope.type]
    | _ => simp [enumItems, constantItems, ModelKind.aliased?, ModelKind.meaning?]
  | «alias» target => simp [ModelKind.aliased?, ModelKind.meaning?]
  | map value => simp [ModelKind.aliased?, ModelKind.meaning?, ModelScope.type]
  | union members =>
    simp only [unionItems, get?_unions hd hm hk, Option.getD_some]
    cases members with
    | nil => simp [UnionVariant.ofMembers, ModelKind.aliased?, ModelScope.type]
    | cons u us =>
      split
      · rename_i hnone
        exact absurd hnone (UnionVariant.ofMembers_ne_nil _ _ (List.cons_ne_nil u us))
      · simp [ModelKind.aliased?, ModelKind.meaning?]

/-- The aliases in the files are those of the models that have one. -/
theorem exists_alias_files_iff (hd : (models.map (·.name)).Nodup) {a : String}
    {p : Ty → List String → Prop} :
    (∃ f ∈ (files models).value, ∃ x, Item.alias x ∈ f.module.items ∧ x.name = a ∧
      p x.type f.module.visible) ↔
    ∃ m ∈ models, m.name = a ∧ ∃ t, m.kind.aliased? = some t ∧
      p ((ModelSet.ofModels models).scope.type t) (visibleNames models m) := by
  have hdeclared := @exists_declared_files_iff models a
    fun i names => ∃ x : Code.Alias, i = .alias x ∧ p x.type names
  constructor
  · rintro ⟨f,hf,x,hx,rfl,hp⟩
    obtain ⟨m,hm,hname,i,hi,_,y,rfl,hp⟩ := hdeclared.mp ⟨f,hf,_,hx,rfl,x,rfl,hp⟩
    obtain ⟨t,ht,rfl⟩ := (alias_mem_declarations hd hm).mp hi
    exact ⟨m,hm,hname,t,ht,hp⟩
  · rintro ⟨m,hm,rfl,t,ht,hp⟩
    have hmem := (alias_mem_declarations hd hm).mpr ⟨t,ht,rfl⟩
    obtain ⟨f,hf,i,hi,hn,x,rfl,hp⟩ := hdeclared.mpr ⟨m,hm,rfl,_,hmem,rfl,_,rfl,hp⟩
    exact ⟨f,hf,x,hi,Option.some.inj hn,hp⟩

/-! ## Names in types -/

theorem named_type (s : ModelScope) (t : TypeRef) :
    (s.type t).named = t.names.filter s.knows := by
  simp [Ty.named, ModelScope.models_type, Function.comp_def]

end Sdk.DataTypes

namespace Sdk.ModelScope
open Code (Ty)

/-- The names without arguments that a type is written with, anywhere in it and other than those of
models. The keys of a table are texts. -/
def bareNames (s : ModelScope) : TypeRef → List String
  | .timestamp => ["chrono::Utc"]
  | .array item => s.bareNames item
  | .map value => "String" :: s.bareNames value
  | t => (s.bareName? t).toList

/-- The names in a type as it is read are those of its models, and those of built-in types that
models have, too. -/
theorem mem_named_read_type {s : ModelScope} {t : TypeRef} {names : List String} {n : String} :
    n ∈ ((s.type t).read names).named ↔
      (n ∈ t.names ∧ s.knows n = true) ∨ (n ∈ s.bareNames t ∧ n ∈ names) := by
  have hbare (name : String) : n ∈ ((Ty.path name).read names).named ↔ n = name ∧ n ∈ names := by
    have hnamed : ((Ty.path name).read names).named =
        ((Ty.path name).read names).inPlace?.toList := by
      rw [Ty.read]
      split <;> rfl
    rw [hnamed, Option.mem_toList, Ty.inPlace?_read_path, eq_comm]
  induction t with
  | named m =>
    by_cases hm : s.knows m = true
    · simp only [ModelScope.type, hm, if_true, Ty.read, Ty.named, Ty.models, List.map_singleton,
        List.mem_singleton, TypeRef.names, bareNames, bareName?, Option.toList_none,
        List.not_mem_nil, false_and, or_false]
      exact ⟨fun h => ⟨h,h ▸ hm⟩,fun h => h.1⟩
    · simp only [ModelScope.type, hm, anyValue, hbare, TypeRef.names, List.mem_singleton, bareNames,
        bareName?, Bool.false_eq_true, if_false, Option.toList_some]
      refine ⟨.inr,fun h => h.resolve_left ?_⟩
      rintro ⟨rfl,hn⟩
      exact hm hn
  | timestamp =>
    have hread : ((s.type .timestamp).read names).named =
        ((Ty.path "chrono::Utc").read names).named := by
      simp [ModelScope.type, Ty.read, Ty.readAll, Ty.named_generic]
    rw [hread, hbare]
    simp [TypeRef.names, bareNames]
  | array t ih => exact ih
  | map t ih =>
    have hread : ((s.type (.map t)).read names).named =
        ((Ty.path "String").read names).named ++ ((s.type t).read names).named := by
      by_cases hname : names.contains "String" = true
      · simp only [ModelScope.type, Ty.read, hname, if_true, Ty.named_generic, List.flatMap_cons,
          List.flatMap_nil, List.append_nil]
      · simp only [ModelScope.type, Ty.read, hname, if_false, Bool.false_eq_true]
        rfl
    rw [hread, List.mem_append]
    refine (or_congr (hbare "String") ih).trans ?_
    simp only [TypeRef.names, bareNames, List.mem_cons]
    tauto
  | _ => simp [ModelScope.type, anyValue, hbare, bareNames, bareName?, TypeRef.names]

end Sdk.ModelScope

namespace Sdk.DataTypes
open Relation (TransGen)
variable {models : List Model}

/-! ## Cycles -/

theorem exists_aliased?_iff {k : ModelKind} {n : String} :
    (∃ t, k.aliased? = some t ∧ n ∈ t.names) ↔ ∃ t, k.meaning? = some t ∧ n ∈ t.names := by
  cases k with
  | enum values =>
    cases values with
    | texts vs => cases vs <;> simp [ModelKind.aliased?, ModelKind.meaning?, TypeRef.names]
    | _ => simp [ModelKind.aliased?, ModelKind.meaning?]
  | union members => cases members <;> simp [ModelKind.aliased?, ModelKind.meaning?, TypeRef.names]
  | _ => simp [ModelKind.aliased?, ModelKind.meaning?, TypeRef.names]

theorem mem_aliasMentions_files (hd : (models.map (·.name)).Nodup) {a b : String} :
    (a,b) ∈ Code.aliasMentions (files models).value ↔
      Names models a b ∧ ∃ m ∈ models, m.name = b := by
  have hknows : (ModelSet.ofModels models).scope.knows b = true ↔ ∃ m ∈ models, m.name = b :=
    ModelScope.knows_iff
  rw [Code.mem_aliasMentions, exists_alias_files_iff hd (p := fun t _ => b ∈ t.named)]
  simp only [named_type, List.mem_filter, hknows, ← and_assoc, exists_and_right,
    exists_aliased?_iff, Names]

theorem acyclic_files_iff (hd : (models.map (·.name)).Nodup) :
    (∀ a, ¬ TransGen (fun a b => (a,b) ∈ Code.aliasMentions (files models).value) a a) ↔
      ∀ a, ¬ TransGen (Names models) a a := by
  refine forall_congr' fun a => not_congr (Code.transGen_self_iff ?_ ?_).symm
  · exact fun _ _ h => ((mem_aliasMentions_files hd).mp h).1
  · rintro a b c h ⟨m,hm,hname,_⟩
    exact (mem_aliasMentions_files hd).mpr ⟨h,m,hm,hname⟩

/-- The file of a model that becomes an alias knows the models that the alias mentions. -/
theorem mem_visibleNames_iff_knows {m : Model} (hm : m ∈ models) {t : TypeRef}
    (ht : m.kind.aliased? = some t) {n : String} (hn : n ∈ t.names) :
    n ∈ visibleNames models m ↔ (ModelSet.ofModels models).scope.knows n = true := by
  have hmentioned : n ∈ mentioned (.ofModels models) m := by
    obtain ⟨u,hu,hn⟩ := exists_aliased?_iff.mp ⟨t,ht,hn⟩
    unfold mentioned
    cases hk : m.kind with
    | «alias» target =>
      rw [hk] at hu
      cases hu
      exact hn
    | map value =>
      rw [hk] at hu
      cases hu
      exact hn
    | _ => simp [hk, ModelKind.meaning?] at hu
  rw [visibleNames, List.mem_cons, mem_imports]
  constructor
  · rintro (rfl | ⟨_,_,hknown⟩)
    · exact ModelScope.knows_iff.mpr ⟨m,hm,rfl⟩
    · exact hknown
  · intro hknown
    by_cases hown : n = m.name
    · exact .inl hown
    · exact .inr ⟨hmentioned,hown,hknown⟩

/-- As its file is read, the alias of `a` names the model `b`: either it mentions the model, or a
built-in type of this name. -/
def NamesRead (models : List Model) (a b : String) : Prop :=
  ∃ m ∈ models, m.name = a ∧ b ∈ visibleNames models m ∧ ∃ t, m.kind.aliased? = some t ∧
    (b ∈ t.names ∨ b ∈ (ModelScope.ofModels models none).bareNames t)

theorem mem_aliasMentions_read_files (hd : (models.map (·.name)).Nodup) {a b : String} :
    (a,b) ∈ Code.aliasMentions ((files models).value.map Code.File.read) ↔
      NamesRead models a b := by
  rw [Code.mem_aliasMentions_read,
    exists_alias_files_iff hd (p := fun t names => b ∈ (t.read names).named)]
  refine exists_congr fun m => and_congr_right fun hm => and_congr_right fun _ => ?_
  rw [← exists_and_left]
  refine exists_congr fun t => ?_
  rw [and_left_comm]
  refine and_congr_right fun ht => ?_
  rw [ModelScope.mem_named_read_type, and_or_left, and_comm (a := b ∈ t.names)]
  exact or_congr (and_congr_left fun hn => (mem_visibleNames_iff_knows hm ht hn).symm) and_comm

end Sdk.DataTypes
end ClientGen
