import ClientGen.Proofs.DataTypes.References
import ClientGen.Proofs.Passes

/-! # Conversions into unions

A union's enum has one variant for each different member, and the file of a record one conversion
for each union that lists the record. The two are generated apart, from the union's members and from
the record's links, and have to agree on the variant and on whether its payload is boxed.
-/
namespace ClientGen
namespace Code

/-- The name that a type is written with, if it is nothing else. -/
def Ty.name? : Ty → Option String
  | .path name => some name
  | .model none name => some name
  | _ => none

/-- What `impl From<source> for target` converts. -/
def Impl.conversion? (i : Impl) : Option (String × String) :=
  match i.trait with
  | some (.generic "From" [source]) => do return (← source.name?,← i.target.name?)
  | _ => none

def Item.conversion? (source target : String) : Item → Option Impl
  | .impl i => if i.conversion? = some (source,target) then some i else none
  | _ => none

/-- The conversions from `source` into `target`, each with the file that it is in. -/
def conversions (files : List File) (source target : String) : List (File × Impl) :=
  files.flatMap fun f => (f.module.items.filterMap (Item.conversion? source target)).map (f,·)

def Item.variantsOf (name : String) : Item → List Variant
  | .enum e => if e.name = name then e.variants else []
  | _ => []

/-- The variants that a module declares for a type. -/
def Module.variantsOf (m : Module) (name : String) : List Variant :=
  m.items.flatMap (Item.variantsOf name)

theorem Module.variantsOf_read (m : Module) (name : String) :
    m.read.variantsOf name = (m.variantsOf name).map (Variant.read m.visible) := by
  rw [Module.variantsOf, Module.read, List.flatMap_map, Module.variantsOf, List.map_flatMap]
  refine List.flatMap_congr fun i _ => ?_
  cases i with
  | enum e =>
    simp only [Item.read, Item.variantsOf]
    split <;> rfl
  | _ => rfl

def Ty.isModel (name : String) : Ty → Bool
  | .model none n => n == name
  | _ => false

/-- The payload is a model, boxed or not. -/
def Variant.carries (name : String) (v : Variant) : Bool :=
  match v.payload with
  | some (.box t) => t.isModel name
  | some t => t.isModel name
  | none => false

/-- The function that makes a variant of `Self` from a value. -/
def fromFunction (source variant : String) (value : Expr) : Function :=
  { Function.public "from" with
    isPublic := false
    params := [⟨"value",.model none source⟩]
    result := some (.path "Self")
    body := [.result (.call ("Self::" ++ variant) [value])] }

/-- The implementation makes the variant, and boxes the value exactly if the payload is boxed. -/
def Impl.Makes (i : Impl) (source : String) (v : Variant) : Prop :=
  v.payload = some (.model none source) ∧
      i.members = [.function (fromFunction source v.name (.path "value"))] ∨
    v.payload = some (.box (.model none source)) ∧
      i.members = [.function (fromFunction source v.name (.call "Box::new" [.path "value"]))]

/-- The only file that declares a name. -/
def IsHome (files : List File) (name : String) (f : File) : Prop :=
  f ∈ files ∧ ∀ other ∈ files, other.module.Declares name ↔ other = f

end Code

/-! ## Different members -/

/-- The different items of a list in the order of their first occurrence. -/
structure FirstOccurrences {α : Type} [DecidableEq α] (all once : List α) : Prop where
  nodup : once.Nodup
  mem_iff (x : α) : x ∈ once ↔ x ∈ all
  increasing : once.Pairwise fun a b => all.idxOf a < all.idxOf b

section
variable {α : Type} [DecidableEq α]

theorem idxOf_lt_of_filter {p : α → Bool} {a b : α} (ha : p a = true) (hb : p b = true)
    {xs : List α} (h : (xs.filter p).idxOf a < (xs.filter p).idxOf b) :
    xs.idxOf a < xs.idxOf b := by
  induction xs with
  | nil => exact h
  | cons x rest ih =>
    by_cases hx : p x = true
    · rw [List.filter_cons_of_pos hx] at h
      by_cases hxb : x = b
      · simp [hxb] at h
      by_cases hxa : x = a
      · simp [hxa, List.idxOf_cons_ne rest (hxa ▸ hxb)]
      · rw [List.idxOf_cons_ne _ hxa, List.idxOf_cons_ne _ hxb] at h ⊢
        exact Nat.succ_lt_succ (ih (Nat.lt_of_succ_lt_succ h))
    · rw [List.filter_cons_of_neg hx] at h
      have hxa : x ≠ a := fun he => hx (he ▸ ha)
      have hxb : x ≠ b := fun he => hx (he ▸ hb)
      rw [List.idxOf_cons_ne _ hxa, List.idxOf_cons_ne _ hxb]
      exact Nat.succ_lt_succ (ih h)

theorem firstOccurrences_eraseDups (xs : List α) : FirstOccurrences xs xs.eraseDups := by
  induction hl : xs.length using Nat.strongRecOn generalizing xs with
  | ind l ih =>
    cases xs with
    | nil => exact ⟨.nil,by simp,.nil⟩
    | cons x rest =>
      have hshorter : (rest.filter fun y => !y == x).length < l := by
        rw [← hl, List.length_cons]
        exact Nat.lt_succ_of_le (List.length_filter_le _ _)
      obtain ⟨hnodup,_,hincreasing⟩ := ih _ hshorter (rest.filter fun y => !y == x) rfl
      have hother : ∀ y ∈ (rest.filter fun y => !y == x).eraseDups, (!y == x) = true := by
        intro y hy
        exact (List.mem_filter.mp (List.mem_eraseDups.mp hy)).2
      have hne : ∀ y ∈ (rest.filter fun y => !y == x).eraseDups, x ≠ y := by
        intro y hy he
        simpa [he] using hother y hy
      rw [List.eraseDups_cons]
      refine ⟨List.nodup_cons.mpr ⟨fun hx => hne x hx rfl,hnodup⟩,?_,?_⟩
      · intro y
        rw [← List.eraseDups_cons, List.mem_eraseDups]
      · refine List.pairwise_cons.mpr ⟨?_,?_⟩
        · intro y hy
          rw [List.idxOf_cons_self, List.idxOf_cons_ne _ (hne y hy)]
          exact Nat.succ_pos _
        · refine hincreasing.imp_of_mem ?_
          intro a b ha hb hab
          rw [List.idxOf_cons_ne _ (hne a ha), List.idxOf_cons_ne _ (hne b hb)]
          apply Nat.succ_lt_succ
          exact idxOf_lt_of_filter (p := fun y => !y == x) (hother a ha) (hother b hb) hab

end

namespace UnionVariant
variable {c : Containment} {union : String} {members : List TypeRef}

theorem map_member_ofMembers (c : Containment) (union : String) (members : List TypeRef) :
    (ofMembers c union members).map (·.member) = members.eraseDups := by
  unfold ofMembers
  rw [List.map_map]
  exact List.map_fst_zip (by simp)

/-- One variant is made from each member. -/
theorem filter_ofMembers {t : TypeRef} (ht : t ∈ members) : ∃ v,
    (ofMembers c union members).filter (·.member == t) = [v] ∧ v.member = t := by
  obtain ⟨v,hv,rfl⟩ := exists_variant c union ht
  have hnodup : ((ofMembers c union members).map (·.member)).Nodup := by
    rw [map_member_ofMembers]
    exact (firstOccurrences_eraseDups members).nodup
  exact ⟨v,filter_eq_of_mem hnodup hv,rfl⟩

end UnionVariant

namespace Sdk.DataTypes
open Code (Item Ty Variant)
variable {models : List Model}

/-! ## Variants -/

/-- The payload that a union's enum declares for a member. -/
def payloadType (s : ModelSet) (union : String) (t : TypeRef) : Ty :=
  boxedIf (s.containment.cyclesBack t union) (s.scope.type t)

def variantCode (s : ModelSet) (v : UnionVariant) : Variant :=
  ⟨[],[],v.name,some (boxedIf v.boxed (s.scope.type v.member))⟩

theorem variantsOf_importItems (names : List String) (u : String) :
    (importItems names).flatMap (Item.variantsOf u) = [] := by
  unfold importItems
  split <;> rfl

theorem variantsOf_fileOf (hd : (models.map (·.name)).Nodup) (module : String) {m : Model}
    (hm : m ∈ models) {members : List TypeRef} (hk : m.kind = .union members) :
    (fileOf models (module,m)).module.variantsOf m.name =
      (UnionVariant.ofMembers (.ofModels models) m.name members).map
        (variantCode (.ofModels models)) := by
  unfold Code.Module.variantsOf
  rw [items_fileOf, List.flatMap_append, variantsOf_importItems, List.nil_append]
  simp only [declarations, hk, unionItems, get?_unions hd hm hk, Option.getD_some]
  split
  · rename_i hnone
    rw [hnone]
    rfl
  · rename_i vs _
    simp [Item.variantsOf, variantCode]

theorem payload_variantsOf {u : String} {members : List TypeRef} :
    ((UnionVariant.ofMembers (.ofModels models) u members).map
      (variantCode (.ofModels models))).map (·.payload) =
      members.eraseDups.map fun t => some (payloadType (.ofModels models) u t) := by
  rw [← UnionVariant.map_member_ofMembers (.ofModels models) u, List.map_map, List.map_map]
  apply List.map_congr_left
  intro v hv
  simp only [Function.comp_apply, variantCode, payloadType, (UnionVariant.mem_ofMembers hv).2]
  rfl

theorem type_of_known {name : String} (h : (ModelSet.ofModels models).scope.knows name = true) :
    (ModelSet.ofModels models).scope.type (.named name) = .model none name := by
  simp only [ModelScope.type, h, if_pos]
  rfl

theorem isModel_type {name : String} (h : (ModelSet.ofModels models).scope.knows name = true)
    (t : TypeRef) :
    ((ModelSet.ofModels models).scope.type t).isModel name = (t == .named name) := by
  cases t with
  | named n =>
    by_cases hn : (ModelSet.ofModels models).scope.knows n = true
    · rw [type_of_known hn]
      by_cases he : n = name <;> simp [Ty.isModel, he]
    · have he : n ≠ name := fun he => hn (he ▸ h)
      simp [ModelScope.type, hn, anyValue, Ty.isModel, he]
  | _ => rfl

theorem isModel_read_type {name : String} {names : List String} (hvisible : name ∈ names)
    (h : (ModelSet.ofModels models).scope.knows name = true) (t : TypeRef) :
    (((ModelSet.ofModels models).scope.type t).read names).isModel name =
      (t == .named name || (ModelSet.ofModels models).scope.bareName? t == some name) := by
  have hbare (n : String) : ((Ty.path n).read names).isModel name = (n == name) := by
    have hsame : ((Ty.path n).read names).isModel name =
        (((Ty.path n).read names).inPlace? == some name) := by
      rw [Ty.read]
      split <;> rfl
    rw [hsame, Bool.eq_iff_iff]
    simp [Ty.inPlace?_read_path, hvisible]
  cases t with
  | named n =>
    by_cases hn : (ModelSet.ofModels models).scope.knows n = true
    · rw [type_of_known hn]
      by_cases he : n = name <;> simp [Ty.read, Ty.isModel, ModelScope.bareName?, he, hn]
    · have hne : n ≠ name := fun he => hn (he ▸ h)
      simp [ModelScope.type, hn, anyValue, hbare, ModelScope.bareName?, hne]
  | map t =>
    simp only [ModelScope.type, Ty.read]
    split <;> rfl
  | timestamp => rfl
  | array t => rfl
  | _ => simp [ModelScope.type, anyValue, hbare, ModelScope.bareName?]

theorem type_ne_box (s : ModelScope) (t : TypeRef) (t' : Ty) : s.type t ≠ .box t' := by
  cases t with
  | named n =>
    unfold ModelScope.type
    split <;> simp [anyValue]
  | _ => simp [ModelScope.type, anyValue]

theorem carries_boxedIf (name variant : String) (boxed : Bool) {t : Ty} (h : ∀ t', t ≠ .box t') :
    Variant.carries name ⟨[],[],variant,some (boxedIf boxed t)⟩ = t.isModel name := by
  cases boxed with
  | true => rfl
  | false =>
    cases t with
    | box t' => exact absurd rfl (h t')
    | _ => rfl

theorem read_type_ne_box (s : ModelScope) (t : TypeRef) (names : List String) (t' : Ty) :
    (s.type t).read names ≠ .box t' := by
  have hread (u : Ty) : u.read names = .box t' → ∃ t'', u = .box t'' := by
    cases u with
    | box u => exact fun _ => ⟨u,rfl⟩
    | path n =>
      rw [Ty.read]
      split <;> exact Ty.noConfusion
    | map u =>
      rw [Ty.read]
      split <;> exact Ty.noConfusion
    | _ => exact Ty.noConfusion
  intro h
  obtain ⟨t'',he⟩ := hread _ h
  exact type_ne_box s t t'' he

/-- The variant that carries a known model is the one of this member. -/
theorem carries_variantCode {name : String}
    (h : (ModelSet.ofModels models).scope.knows name = true) (v : UnionVariant) :
    (variantCode (.ofModels models) v).carries name = (v.member == .named name) := by
  rw [← isModel_type h]
  exact carries_boxedIf name v.name v.boxed (type_ne_box _ v.member)

/-- As they are read, variants of members that are written with the name carry the model, too. -/
theorem carries_read_variantCode {name : String} {names : List String} (hvisible : name ∈ names)
    (h : (ModelSet.ofModels models).scope.knows name = true) (v : UnionVariant) :
    ((variantCode (.ofModels models) v).read names).carries name = (v.member == .named name ||
      (ModelSet.ofModels models).scope.bareName? v.member == some name) := by
  have hread (boxed : Bool) (t : Ty) :
      (boxedIf boxed t).read names = boxedIf boxed (t.read names) := by
    cases boxed <;> rfl
  rw [← isModel_read_type hvisible h, Variant.read, variantCode, Option.map_some, hread]
  exact carries_boxedIf name v.name v.boxed (read_type_ne_box _ v.member names)

/-! ## Conversions in the file of a record -/

/-- The conversion into a variant of a union. -/
def conversionImpl (owner union : String) (v : UnionVariant) : Code.Impl where
  lifetimes := []
  trait := some (.generic "From" [.model none owner])
  target := .model none union
  members := [.function (Code.fromFunction owner v.name
    (if v.boxed then .call "Box::new" [.path "value"] else .path "value"))]

theorem unionImpl?_iff {s : ModelSet} {owner union : String} {i : Code.Impl} :
    unionImpl? s owner union = some i ↔ ∃ vs v, s.unions.get? union = some vs ∧
      vs.find? (isVariantOf owner) = some v ∧ i = conversionImpl owner union v := by
  unfold unionImpl?
  cases hu : s.unions.get? union with
  | none => simp
  | some vs =>
    cases hv : vs.find? (isVariantOf owner) with
    | none => simp [hv]
    | some v =>
      simp only [Option.bind_eq_bind, Option.bind_some, hv, Option.pure_def, Option.some.injEq,
        exists_and_left, exists_eq_left']
      exact eq_comm

theorem conversion?_importItems (names : List String) (a b : String) :
    (importItems names).filterMap (Item.conversion? a b) = [] := by
  unfold importItems
  split <;> rfl

theorem conversion?_enumItems (name : String) (values : EnumValues) (docs : List String)
    (a b : String) : (enumItems name values docs).value.filterMap (Item.conversion? a b) = [] := by
  cases values with
  | texts vs => cases vs <;> rfl
  | _ => rfl

/-- A file has the conversions that its model's links ask for, if that is a record. -/
theorem conversion?_declarations (s : ModelSet) (m : Model) (a b : String) :
    (declarations s m).value.filterMap (Item.conversion? a b) = match m.kind with
      | .record _ => m.implements.filterMap fun u =>
        if m.name = a ∧ u = b then unionImpl? s m.name u else none
      | _ => [] := by
  unfold declarations
  cases m.kind with
  | record r =>
    have hdiscriminator : ((r.discriminator.map fun d =>
        Item.impl (discriminatorImpl m.name d)).toList).filterMap (Item.conversion? a b) = [] := by
      cases r.discriminator <;> rfl
    simp only [Logged.value_pure, recordItems]
    rw [List.cons_append, List.filterMap_cons_none rfl, List.filterMap_append, hdiscriminator,
      List.nil_append, List.filterMap_map, List.filterMap_filterMap]
    congr 1
    funext u
    cases hi : unionImpl? s m.name u with
    | none => simp
    | some i =>
      obtain ⟨vs,v,_,_,rfl⟩ := unionImpl?_iff.mp hi
      simp [Item.conversion?, Code.Impl.conversion?, conversionImpl, Ty.name?]
  | enum values => exact conversion?_enumItems m.name values _ a b
  | union members =>
    simp only [unionItems]
    split <;> rfl
  | _ => rfl

/-! ## The conversions of all files -/

theorem filterMap_ite_eq {α : Type} {names : List String} (hn : names.Nodup) (b : String)
    (o : String → Option α) : names.filterMap (fun u => if u = b then o u else none) =
      if b ∈ names then (o b).toList else [] := by
  induction names with
  | nil => rfl
  | cons u rest ih =>
    obtain ⟨hu,hrest⟩ := List.nodup_cons.mp hn
    by_cases he : u = b
    · subst he
      have hnone : rest.filterMap (fun v => if v = u then o v else none) = [] := by
        rw [ih hrest, if_neg hu]
      rw [List.filterMap_cons, if_pos rfl, hnone, if_pos List.mem_cons_self]
      cases o u <;> rfl
    · rw [List.filterMap_cons, if_neg he, ih hrest]
      simp [Ne.symm he]

/-- The file of a model declares it, and no other file does. -/
theorem exists_isHome (hd : (models.map (·.name)).Nodup) {m : Model} (hm : m ∈ models) :
    ∃ module, (module,m) ∈ (moduleNames models).zip models ∧
      Code.IsHome (files models).value m.name (fileOf models (module,m)) := by
  obtain ⟨_,_,_,_,_,file,hfile,_,_,_,honly⟩ := exportedOnce_of_mem hd hm
  obtain ⟨module,hz⟩ := exists_module hm
  have hmem : fileOf models (module,m) ∈ (files models).value := by
    rw [value_files]
    exact List.mem_append_left _ (List.mem_map_of_mem hz)
  have hsame : fileOf models (module,m) = file :=
    (honly _ hmem).mp (declares_fileOf.mpr rfl)
  exact ⟨module,hz,hmem,hsame ▸ honly⟩

theorem conversion?_indexFile (a b : String) :
    (indexFile models).module.items.filterMap (Item.conversion? a b) = [] := by
  refine List.filterMap_eq_nil_iff.mpr ?_
  intro i hi
  simp only [indexFile, index, List.mem_append, List.mem_map] at hi
  rcases hi with ⟨_,_,rfl⟩ | ⟨_,_,rfl⟩ <;> rfl

theorem conversion?_fileOf (named : String × Model) (a b : String) :
    (fileOf models named).module.items.filterMap (Item.conversion? a b) =
      (declarations (.ofModels models) named.2).value.filterMap (Item.conversion? a b) := by
  rw [items_fileOf, List.filterMap_append, conversion?_importItems, List.nil_append]

/-- The conversions of a record are in its file. -/
theorem conversions_of_record (hd : (models.map (·.name)).Nodup) {module : String} {m : Model}
    (hz : (module,m) ∈ (moduleNames models).zip models) (hs : m.implements.Nodup) {r : Record}
    (hk : m.kind = .record r) (u : String) : Code.conversions (files models).value m.name u =
      if u ∈ m.implements then
        ((unionImpl? (.ofModels models) m.name u).map (fileOf models (module,m),·)).toList
      else [] := by
  have hown : (declarations (.ofModels models) m).value.filterMap
      (Item.conversion? m.name u) =
      if u ∈ m.implements then (unionImpl? (.ofModels models) m.name u).toList else [] := by
    rw [conversion?_declarations]
    simp only [hk, true_and]
    exact filterMap_ite_eq hs u _
  have hother : ∀ named ∈ (moduleNames models).zip models, named.2.name ≠ m.name →
      ((fileOf models named).module.items.filterMap (Item.conversion? m.name u)).map
        (fileOf models named,·) = [] := by
    intro named _ hne
    rw [conversion?_fileOf, conversion?_declarations]
    split <;> simp [hne]
  unfold Code.conversions
  rw [value_files, List.flatMap_append, List.flatMap_map,
    flatMap_eq_of_mem (nodup_names_modules hd) hz hother, conversion?_fileOf, hown]
  simp only [List.flatMap_singleton, conversion?_indexFile, List.map_nil, List.append_nil]
  split
  · cases unionImpl? (.ofModels models) m.name u <;> rfl
  · rfl

/-- Only records that a union lists are converted, and only into it. -/
theorem conversions_ne_nil (hl : Classify.Linked models) {a b : String}
    (h : Code.conversions (files models).value a b ≠ []) :
    ∃ m ∈ models, m.name = a ∧ (∃ r, m.kind = .record r) ∧
      ∃ u ∈ models, u.name = b ∧ u.Lists a := by
  obtain ⟨⟨f,i⟩,hfi⟩ := List.exists_mem_of_ne_nil _ h
  obtain ⟨f',hf,hi⟩ := List.mem_flatMap.mp hfi
  obtain ⟨i',hi',_⟩ := List.mem_map.mp hi
  rw [value_files] at hf
  rcases List.mem_append.mp hf with hf | hf
  · obtain ⟨named,hz,rfl⟩ := List.mem_map.mp hf
    have hm : named.2 ∈ models := (List.of_mem_zip hz).2
    rw [conversion?_fileOf, conversion?_declarations] at hi'
    split at hi'
    · rename_i r hk
      obtain ⟨u,hu,hsome⟩ := List.mem_filterMap.mp hi'
      obtain ⟨⟨rfl,rfl⟩,_⟩ := Option.ite_none_right_eq_some.mp hsome
      obtain ⟨v,hv,hname,hlists⟩ := (hl _ hm u).mp hu
      exact ⟨named.2,hm,rfl,⟨r,hk⟩,v,hv,hname,hlists⟩
    · cases hi'
  · rw [List.mem_singleton.mp hf, conversion?_indexFile] at hi'
    cases hi'

/-! ## Agreement with the union -/

/-- There is one conversion from a record into a union: it is in the file of the record, and makes
the only variant that carries the record, which is the variant of this member. As the file of the
union is read, this is still the only one exactly if no member is a built-in type of that name. -/
def ConvertedOnce (files : List Code.File) (scope : ModelScope) (source target : String)
    (once : List TypeRef) (home : Code.File) : Prop :=
  ∃ f i v, Code.IsHome files source f ∧ Code.conversions files source target = [(f,i)] ∧
    (home.module.variantsOf target).filter (·.carries source) = [v] ∧
    (.named source,v) ∈ once.zip (home.module.variantsOf target) ∧ i.Makes source v ∧
    ((home.read.module.variantsOf target).filter (·.carries source) = [v] ↔
      ∀ t ∈ once, scope.bareName? t ≠ some source)

theorem makes_conversionImpl {name : String}
    (h : (ModelSet.ofModels models).scope.knows name = true) {v : UnionVariant}
    (hv : v.member = .named name) (u : String) :
    (conversionImpl name u v).Makes name (variantCode (.ofModels models) v) := by
  have htype := type_of_known h
  cases hb : v.boxed with
  | true =>
    refine .inr ⟨?_,?_⟩
    · simp [variantCode, hv, hb, htype, boxedIf]
    · simp [variantCode, conversionImpl, hb]
  | false =>
    refine .inl ⟨?_,?_⟩
    · simp [variantCode, hv, hb, htype, boxedIf]
    · simp [variantCode, conversionImpl, hb]

theorem isVariantOf_eq (name : String) (v : UnionVariant) :
    isVariantOf name v = (v.member == .named name) := by
  unfold isVariantOf
  cases v.member with
  | named n => by_cases h : n = name <;> simp [TypeRef.directName?, h]
  | _ => rfl

theorem mem_visibleNames_of_mem {m u : Model} (hm : m ∈ models) {members : List TypeRef}
    (hku : u.kind = .union members) (hlists : .named m.name ∈ members) :
    m.name ∈ visibleNames models u := by
  rw [visibleNames, List.mem_cons]
  by_cases hown : m.name = u.name
  · exact .inl hown
  · refine .inr (mem_imports.mpr ⟨?_,hown,ModelScope.knows_iff.mpr ⟨m,hm,rfl⟩⟩)
    simp only [mentioned, hku]
    exact List.mem_flatMap.mpr ⟨_,hlists,List.mem_singleton_self _⟩

theorem read_variantCode {name : String} (names : List String)
    (h : (ModelSet.ofModels models).scope.knows name = true) {v : UnionVariant}
    (hv : v.member = .named name) :
    (variantCode (.ofModels models) v).read names = variantCode (.ofModels models) v := by
  rw [Variant.read, variantCode, hv, type_of_known h]
  cases v.boxed <;> rfl

/-- No second variant is read as one that carries the model exactly if no member is a built-in type
of this name. -/
theorem filter_carries_read_iff {name u : String} {members : List TypeRef} {names : List String}
    (hvisible : name ∈ names) (h : (ModelSet.ofModels models).scope.knows name = true)
    {v : UnionVariant} (hv : v.member = .named name)
    (hone : (UnionVariant.ofMembers (.ofModels models) u members).filter
      (·.member == .named name) = [v]) :
    (((UnionVariant.ofMembers (.ofModels models) u members).map
      (variantCode (.ofModels models))).map (Variant.read names)).filter (·.carries name) =
        [variantCode (.ofModels models) v] ↔
      ∀ t ∈ members.eraseDups, (ModelSet.ofModels models).scope.bareName? t ≠ some name := by
  let variants := UnionVariant.ofMembers (.ofModels models) u members
  let carries (v : UnionVariant) : Bool := v.member == .named name ||
    (ModelSet.ofModels models).scope.bareName? v.member == some name
  have hcarries : (fun v => v.carries name) ∘
      (Variant.read names ∘ variantCode (.ofModels models)) = carries :=
    funext (carries_read_variantCode hvisible h)
  rw [List.map_map, List.filter_map, hcarries]
  constructor
  · intro honly t ht hbare
    obtain ⟨w,hw,rfl⟩ :=
      UnionVariant.exists_variant (.ofModels models) u (List.mem_eraseDups.mp ht)
    have hin : v ∈ variants.filter carries := by
      refine List.mem_filter.mpr ⟨?_,by simp [carries, hv]⟩
      exact (List.mem_filter.mp (hone ▸ List.mem_singleton_self v)).1
    have hwin : w ∈ variants.filter carries := List.mem_filter.mpr ⟨hw,by simp [carries, hbare]⟩
    obtain ⟨x,hx⟩ := List.length_eq_one_iff.mp (by simpa using congrArg List.length honly)
    rw [hx] at hin hwin
    rw [List.mem_singleton.mp hwin, ← List.mem_singleton.mp hin, hv] at hbare
    simp [ModelScope.bareName?, h] at hbare
  · intro hfree
    have hsame : variants.filter carries = [v] := by
      rw [← hone]
      refine List.filter_congr fun w hw => ?_
      have hbare := hfree w.member
        (List.mem_eraseDups.mpr (UnionVariant.mem_ofMembers hw).1)
      simp [carries, hbare]
    rw [hsame, List.map_singleton, Function.comp_apply, read_variantCode names h hv]

theorem convertedOnce_of_mem (hd : (models.map (·.name)).Nodup) (hl : Classify.Linked models)
    {m u : Model} (hm : m ∈ models) (hu : u ∈ models) (hs : m.implements.Nodup) {r : Record}
    (hk : m.kind = .record r) {members : List TypeRef} (hku : u.kind = .union members)
    (hlists : .named m.name ∈ members) (module : String) :
    ConvertedOnce (files models).value (ModelSet.ofModels models).scope m.name u.name
      members.eraseDups (fileOf models (module,u)) := by
  let variants := UnionVariant.ofMembers (.ofModels models) u.name members
  have hknown : (ModelSet.ofModels models).scope.knows m.name = true :=
    ModelScope.knows_iff.mpr ⟨m,hm,rfl⟩
  obtain ⟨_,hz,hhome⟩ := exists_isHome hd hm
  obtain ⟨v,hone,hmember⟩ : ∃ v, variants.filter (·.member == .named m.name) = [v] ∧
      v.member = .named m.name := UnionVariant.filter_ofMembers hlists
  have hv : v ∈ variants := (List.mem_filter.mp (hone ▸ List.mem_cons_self)).1
  -- both the file of the record and that of the union look for the member in this table
  have hfind : variants.find? (isVariantOf m.name) = some v := by
    rw [← List.head?_filter, funext (isVariantOf_eq m.name), hone]
    rfl
  have himpl : unionImpl? (.ofModels models) m.name u.name =
      some (conversionImpl m.name u.name v) :=
    unionImpl?_iff.mpr ⟨variants,v,get?_unions hd hu hku,hfind,rfl⟩
  have hlinked : u.name ∈ m.implements := (hl m hm u.name).mpr ⟨u,hu,rfl,members,hku,hlists⟩
  have hvariants := variantsOf_fileOf hd module hu hku
  refine ⟨_,conversionImpl m.name u.name v,variantCode (.ofModels models) v,hhome,?_,?_,?_,
    makes_conversionImpl hknown hmember u.name,?_⟩
  · rw [conversions_of_record hd hz hs hk, if_pos hlinked, himpl]
    rfl
  · have hcarries : (fun v => v.carries m.name) ∘ variantCode (.ofModels models) =
        fun v => v.member == .named m.name := funext (carries_variantCode hknown)
    rw [hvariants, List.filter_map, hcarries, hone]
    rfl
  · rw [hvariants, ← UnionVariant.map_member_ofMembers (.ofModels models) u.name, List.zip_map']
    exact List.mem_map.mpr ⟨v,hv,by rw [hmember]⟩
  · rw [Code.File.read, Code.Module.variantsOf_read, visible_fileOf, hvariants]
    exact filter_carries_read_iff (mem_visibleNames_of_mem hm hku hlists) hknown hmember hone

end Sdk.DataTypes

namespace Generator
open Sdk.DataTypes (ConvertedOnce ModelSet payloadType)

/-- A union's enum has one variant for each different member, and each record among the members one
conversion, into its variant. There are no other conversions. -/
theorem conversions_match (g : Generator) :
    (∀ u ∈ g.models.value, ∀ members, u.kind = .union members →
      ∃ home once, Code.IsHome (g.files .models).value u.name home ∧
        FirstOccurrences members once ∧
        (home.module.variantsOf u.name).map (·.payload) =
          once.map (fun t => some (payloadType (.ofModels g.models.value) u.name t)) ∧
        ∀ m ∈ g.models.value, ∀ r, m.kind = .record r → .named m.name ∈ members →
          ConvertedOnce (g.files .models).value (.ofModels g.models.value none) m.name u.name once
            home) ∧
    ∀ source target, (¬ ∃ m ∈ g.models.value, ∃ u ∈ g.models.value, m.name = source ∧
        u.name = target ∧ (∃ r, m.kind = .record r) ∧ u.Lists source) →
      Code.conversions (g.files .models).value source target = [] := by
  have hd := g.nodup_models
  have hl := g.models_linked
  rw [value_files_models]
  refine ⟨?_,?_⟩
  · intro u hu members hku
    obtain ⟨module,_,hhome⟩ := Sdk.DataTypes.exists_isHome hd hu
    have hvariants := Sdk.DataTypes.variantsOf_fileOf hd module hu hku
    refine ⟨_,members.eraseDups,hhome,firstOccurrences_eraseDups members,?_,?_⟩
    · rw [hvariants]
      exact Sdk.DataTypes.payload_variantsOf
    · intro m hm r hk hlists
      have hs : m.implements.Nodup := (Classify.increasing_links hm).imp String.ne_of_lt
      exact Sdk.DataTypes.convertedOnce_of_mem hd hl hm hu hs hk hku hlists module
  · intro source target hnone
    by_contra hsome
    obtain ⟨m,hm,hname,hrecord,u,hu,hname',hlists⟩ :=
      Sdk.DataTypes.conversions_ne_nil hl hsome
    exact hnone ⟨m,hm,u,hu,hname,hname',hrecord,hlists⟩

/-- A union that lists a record twice, which has the union as a field, beside a text. -/
def wardrobe : Generator where
  document :=
    { paths := .empty
      components := some ⟨.ofList [
        ("Coat",.object [("type",.text "object"),("properties",.object [
          ("under",.object [("$ref",.text "#/components/schemas/Outfit")])])]),
        ("Outfit",.object [("oneOf",.list [
          .object [("$ref",.text "#/components/schemas/Coat")],
          .object [("type",.text "string")],
          .object [("$ref",.text "#/components/schemas/Coat")]])])],.empty,.empty⟩ }
  config := defaultConfig
  paths := .default

theorem conversions_match_wardrobe :
    (∃ f i v, Code.conversions (wardrobe.files .models).value "Coat" "Outfit" = [(f,i)] ∧
      i.Makes "Coat" v) ∧
    Code.conversions (wardrobe.files .models).value "Outfit" "Coat" = [] := by
  obtain ⟨hunion,hnone⟩ := conversions_match wardrobe
  have hmodels : wardrobe.models.value = [
      ⟨"Coat","Coat",none,.record (.ofFields [⟨"under",.named "Outfit",false,none,none⟩]),
        ["Outfit"]⟩,
      ⟨"Outfit","Outfit",none,.union [.named "Coat",.text,.named "Coat"],[]⟩] := by
    decide +kernel
  rw [hmodels] at hunion hnone
  obtain ⟨_,_,_,_,_,honce⟩ := hunion _ (List.mem_cons_of_mem _ List.mem_cons_self) _ rfl
  obtain ⟨f,i,v,_,hconversions,_,_,hmakes,_⟩ := honce _ List.mem_cons_self _ rfl List.mem_cons_self
  refine ⟨⟨f,i,v,hconversions,hmakes⟩,hnone _ _ ?_⟩
  rintro ⟨m,hm,_,_,hname,_,⟨r,hk⟩,_⟩
  simp only [List.mem_cons, List.not_mem_nil, or_false] at hm
  rcases hm with rfl | rfl
  · simp at hname
  · simp at hk

end Generator
end ClientGen
