import ClientGen.Proofs.Code.Mentions
import ClientGen.Proofs.Data.Dict
import ClientGen.Proofs.Ident.Reserve
import ClientGen.Proofs.Logged
import ClientGen.Sdk.DataTypes

/-! # Declarations of data types

The file of a model begins with its imports, declares one type under the model's name, and goes on
with implementations only. A union's variants are one for each of its members.
-/
namespace ClientGen

namespace UnionVariant

theorem mem_ofMembers {c : Containment} {union : String} {members : List TypeRef}
    {v : UnionVariant} (h : v ∈ ofMembers c union members) :
    v.member ∈ members ∧ v.boxed = c.cyclesBack v.member union := by
  obtain ⟨⟨member,name⟩,hz,rfl⟩ := List.mem_map.mp h
  exact ⟨List.mem_eraseDups.mp (List.of_mem_zip hz).1,rfl⟩

theorem exists_variant (c : Containment) (union : String) {members : List TypeRef}
    {member : TypeRef} (h : member ∈ members) :
    ∃ v ∈ ofMembers c union members, v.member = member := by
  have hl : members.eraseDups.length ≤
      (Ident.reserveAll Ident.reserveType [] (members.eraseDups.map baseName)).length := by simp
  have hm : member ∈ ((members.eraseDups).zip
      (Ident.reserveAll Ident.reserveType [] (members.eraseDups.map baseName))).map Prod.fst := by
    rw [List.map_fst_zip hl]
    exact List.mem_eraseDups.mpr h
  obtain ⟨⟨m,name⟩,hz,rfl⟩ := List.mem_map.mp hm
  exact ⟨_,List.mem_map.mpr ⟨_,hz,rfl⟩,rfl⟩

theorem ofMembers_ne_nil (c : Containment) (union : String) {members : List TypeRef}
    (h : members ≠ []) : ofMembers c union members ≠ [] := by
  obtain ⟨member,hmember⟩ := List.exists_mem_of_ne_nil _ h
  obtain ⟨v,hv,_⟩ := exists_variant c union hmember
  exact List.ne_nil_of_mem hv

end UnionVariant

namespace Sdk.DataTypes
open Code (Item Ty)

/-! ## Unions of a set of models -/

variable {models : List Model}

theorem eq_of_name_eq (hd : (models.map (·.name)).Nodup) {m n : Model} (hm : m ∈ models)
    (hn : n ∈ models) (h : m.name = n.name) : m = n :=
  List.inj_on_of_nodup_map hd hm hn h

theorem unionVariants?_eq_some {c : Containment} {m : Model} {u : String}
    {vs : List UnionVariant} : unionVariants? c m = some (u,vs) ↔
      ∃ members, m.kind = .union members ∧ u = m.name ∧
        vs = UnionVariant.ofMembers c m.name members := by
  unfold unionVariants?
  split
  · rename_i members hk
    simp only [hk, Option.some.injEq, Prod.mk.injEq, ModelKind.union.injEq, exists_eq_left']
    exact and_congr eq_comm eq_comm
  · rename_i hk
    simp only [reduceCtorEq, false_iff]
    rintro ⟨members,h,_⟩
    exact hk members h

theorem exists_union_of_get? {u : String} {vs : List UnionVariant}
    (h : (ModelSet.ofModels models).unions.get? u = some vs) :
    ∃ m ∈ models, ∃ members, m.kind = .union members ∧ u = m.name ∧
      vs = UnionVariant.ofMembers (.ofModels models) m.name members := by
  obtain ⟨m,hm,hv⟩ := List.mem_filterMap.mp (Dict.mem_of_get?_ofList h)
  exact ⟨m,hm,unionVariants?_eq_some.mp hv⟩

theorem get?_unions (hd : (models.map (·.name)).Nodup) {m : Model} (hm : m ∈ models)
    {members : List TypeRef} (hk : m.kind = .union members) :
    (ModelSet.ofModels models).unions.get? m.name =
      some (UnionVariant.ofMembers (.ofModels models) m.name members) := by
  apply Dict.get?_ofList_of_mem
  · exact List.mem_filterMap.mpr ⟨m,hm,unionVariants?_eq_some.mpr ⟨members,hk,rfl,rfl⟩⟩
  · intro w hw
    obtain ⟨n,hn,hv⟩ := List.mem_filterMap.mp hw
    obtain ⟨members',hk',hname,rfl⟩ := unionVariants?_eq_some.mp hv
    cases eq_of_name_eq hd hm hn hname
    cases hk.symm.trans hk'
    rfl

theorem contains_unions (hd : (models.map (·.name)).Nodup) {u : String} :
    (ModelSet.ofModels models).unions.contains u = true ↔
      ∃ m ∈ models, m.name = u ∧ ∃ members, m.kind = .union members := by
  rw [Dict.contains_iff]
  constructor
  · rintro ⟨vs,h⟩
    obtain ⟨m,hm,members,hk,rfl,_⟩ := exists_union_of_get? h
    exact ⟨m,hm,rfl,members,hk⟩
  · rintro ⟨m,hm,rfl,members,hk⟩
    exact ⟨_,get?_unions hd hm hk⟩

/-! ## The items of a file -/

theorem toList_map_impl (o : Option Discriminator) (owner : String) :
    (o.map fun d => Item.impl (discriminatorImpl owner d)).toList =
      (o.map (discriminatorImpl owner)).toList.map Item.impl := by
  cases o <;> rfl

/-- One declared type, under the model's name. -/
theorem declarations_eq_cons (s : ModelSet) (m : Model) :
    ∃ (d : Item) (impls : List Code.Impl), (declarations s m).value = d :: impls.map Item.impl ∧
      d.declared? = some m.name := by
  unfold declarations
  cases m.kind with
  | record r =>
    simp only [Logged.value_pure, recordItems, toList_map_impl, List.cons_append,
      ← List.map_append]
    exact ⟨_,_,rfl,rfl⟩
  | enum values =>
    cases values with
    | texts vs =>
      cases vs with
      | nil => exact ⟨.alias ⟨docsOf m.description,m.name,.path "String"⟩,[],rfl,rfl⟩
      | cons v vs => exact ⟨_,[_,_],rfl,rfl⟩
    | integers vs => exact ⟨_,[_],rfl,rfl⟩
    | numbers vs => exact ⟨_,[_],rfl,rfl⟩
    | booleans vs => exact ⟨_,[_],rfl,rfl⟩
  | «alias» target => exact ⟨_,[],rfl,rfl⟩
  | map value => exact ⟨_,[],rfl,rfl⟩
  | union members =>
    simp only [unionItems]
    cases (s.unions.get? m.name).getD [] with
    | nil => exact ⟨.alias ⟨docsOf m.description,m.name,anyValue⟩,[],rfl,rfl⟩
    | cons v vs => exact ⟨_,[],rfl,rfl⟩

theorem eq_of_declared {s : ModelSet} {m : Model} {i : Item} {n : String}
    (hi : i ∈ (declarations s m).value) (hn : i.declared? = some n) : n = m.name := by
  obtain ⟨d,impls,he,hd⟩ := declarations_eq_cons s m
  rw [he] at hi
  rcases List.mem_cons.mp hi with rfl | hi
  · exact Option.some.inj (hn.symm.trans hd)
  · obtain ⟨_,_,rfl⟩ := List.mem_map.mp hi
    simp [Item.declared?] at hn

theorem declared?_importItems {names : List String} {i : Item} (hi : i ∈ importItems names) :
    i.declared? = none := by
  unfold importItems at hi
  split at hi
  · simp at hi
  · simp only [List.mem_singleton] at hi
    rw [hi]
    rfl

/-! ## Files -/

def fileOf (models : List Model) (named : String × Model) : Code.File :=
  ⟨fileName named.1,(moduleOf (.ofModels models) named.2).value⟩

def indexFile (models : List Model) : Code.File :=
  ⟨"mod.rs",index ((moduleNames models).zip (models.map (·.name)))⟩

theorem map_snd_modules (models : List Model) :
    ((moduleNames models).zip models).map (·.2) = models :=
  List.map_snd_zip (by simp [moduleNames])

/-- Each model has a module. -/
theorem exists_module {m : Model} (hm : m ∈ models) :
    ∃ module, (module,m) ∈ (moduleNames models).zip models := by
  rw [← map_snd_modules models] at hm
  obtain ⟨⟨module,_⟩,hz,rfl⟩ := List.mem_map.mp hm
  exact ⟨module,hz⟩

/-- Modules are told apart by the names of their models. -/
theorem nodup_names_modules (hd : (models.map (·.name)).Nodup) :
    (((moduleNames models).zip models).map fun named => named.2.name).Nodup := by
  rw [← map_snd_modules models, List.map_map] at hd
  exact hd

theorem value_files (models : List Model) : (files models).value =
    ((moduleNames models).zip models).map (fileOf models) ++ [indexFile models] := by
  simp [files, fileOf, indexFile]

theorem items_fileOf (models : List Model) (named : String × Model) :
    (fileOf models named).module.items =
      importItems (imports (.ofModels models) named.2) ++
        (declarations (.ofModels models) named.2).value := by
  simp [fileOf, moduleOf]

/-- Types are declared in the files of models only. -/
theorem exists_fileOf_of_declared {f : Code.File} (hf : f ∈ (files models).value) {i : Item}
    (hi : i ∈ f.module.items) {n : String} (hn : i.declared? = some n) :
    ∃ named, named.2 ∈ models ∧ f = fileOf models named ∧ named.2.name = n ∧
      i ∈ (declarations (.ofModels models) named.2).value := by
  rw [value_files] at hf
  rcases List.mem_append.mp hf with hf | hf
  · obtain ⟨named,hz,rfl⟩ := List.mem_map.mp hf
    rw [items_fileOf] at hi
    rcases List.mem_append.mp hi with hi | hi
    · simp [declared?_importItems hi] at hn
    · exact ⟨named,(List.of_mem_zip hz).2,rfl,(eq_of_declared hi hn).symm,hi⟩
  · simp only [List.mem_singleton] at hf
    subst hf
    simp only [indexFile, index, List.mem_append, List.mem_map] at hi
    rcases hi with ⟨_,_,rfl⟩ | ⟨_,_,rfl⟩ <;> simp [Item.declared?] at hn

end Sdk.DataTypes
end ClientGen
