import ClientGen.Proofs.Calls.Files
import ClientGen.Proofs.DataTypes.References
import ClientGen.Proofs.Navigation.Arguments
import ClientGen.Proofs.Navigation.Items
import ClientGen.Proofs.Passes

/-! # References to data types

Every model that any pass writes is one that the pass over models declares. In the files of models
it is written by its name alone, elsewhere with the path of the models.
-/
namespace ClientGen.Sdk
open Code (Ty Item)

/-- Only known models are written, and all with the path of the scope. -/
def ModelScope.Covers (s : ModelScope) (t : Ty) : Prop :=
  ∀ r ∈ t.models, r.1 = s.path ∧ s.knows r.2 = true

namespace ModelScope
variable {s : ModelScope}

theorem covers_type (t : TypeRef) : s.Covers (s.type t) := by
  intro r hr
  obtain ⟨hs,_,hk⟩ := DataTypes.mem_models_type.mp hr
  exact ⟨hs,hk⟩

theorem covers_of_models_eq_nil {t : Ty} (h : t.models = []) : s.Covers t := by
  simp [Covers, h]

end ModelScope

theorem models_ownedType (c : Scalar) : (ownedType c).models = [] := by
  cases c <;> rfl

theorem models_argumentType (c : Scalar) : (argumentType c).models = [] := by
  cases c <;> rfl

/-! ## Calls -/

variable {s : ModelScope} {paths : ModulePaths} {op : Operation}

theorem covers_result : s.Covers (Signature.ofOperation s paths op).result := by
  have hpayload : s.Covers (Signature.payload s paths op.response) := by
    cases op.response with
    | empty => exact ModelScope.covers_of_models_eq_nil rfl
    | body t => exact s.covers_type t
  simpa [ModelScope.Covers, Signature.ofOperation, Ty.models, Ty.modelsAll] using hpayload

theorem covers_body {b : BodyArgument} (hb : (Signature.ofOperation s paths op).body = some b) :
    s.Covers b.param.type := by
  obtain ⟨t,_,rfl⟩ := Option.map_eq_some_iff.mp hb
  exact s.covers_type t

theorem covers_pathArgument (a : PathArgument) : s.Covers a.param.type :=
  ModelScope.covers_of_models_eq_nil (models_argumentType a.scalar)

theorem Calls.covers_function {t : Ty} (ht : t ∈ (Calls.function s paths op).types) :
    s.Covers t := by
  have hbody : Code.Stmt.typesAll (Calls.body op (Signature.ofOperation s paths op)) = [] := by
    unfold Calls.body
    split <;> rfl
  simp only [Code.Function.types, Calls.function, Calls.params, hbody, List.append_nil,
    List.map_append, List.mem_append, Option.toList_some, List.mem_singleton] at ht
  rcases ht with (((ht | ht) | ht) | ht) | rfl
  · rw [List.mem_singleton.mp ht]
    exact ModelScope.covers_of_models_eq_nil rfl
  · obtain ⟨_,ha,rfl⟩ := List.mem_map.mp ht
    obtain ⟨a,_,rfl⟩ := List.mem_map.mp ha
    exact covers_pathArgument a
  · obtain ⟨_,hparam,rfl⟩ := List.mem_map.mp ht
    obtain ⟨b,hb,rfl⟩ := Option.map_eq_some_iff.mp (Option.mem_toList.mp hparam)
    exact covers_body hb
  · split at ht
    · rw [List.mem_singleton.mp ht]
      exact ModelScope.covers_of_models_eq_nil rfl
    · exact absurd ht List.not_mem_nil
  · exact covers_result

namespace QueryOptions

theorem models_of_mem_setter {o : QueryOption} {t : Ty} (ht : t ∈ (setter o).types) :
    t.models = [] := by
  unfold setter at ht
  cases hs : o.scalar <;>
    simp only [hs, Code.Function.types, Code.Stmt.typesAll, Code.Stmt.types, List.map_cons,
      List.map_nil, Option.toList_some, List.append_nil, List.mem_append,
      List.mem_singleton] at ht <;>
    rcases ht with rfl | rfl <;> rfl

theorem models_of_mem_buildQuery {os : List QueryOption} {t : Ty}
    (ht : t ∈ (buildQuery paths os).types) : t.models = [] := by
  have hpush (o : QueryOption) : (pushPair paths o).types = [] := by
    simp [pushPair, Code.Stmt.types, Code.Stmt.typesAll]
  have hbody : (queryBody paths os).flatMap Code.Stmt.types ⊆ [.vec (.path "String")] := by
    unfold queryBody
    split <;> simp [Code.Stmt.types, List.flatMap_map, hpush, joinPairs, Code.Stmt.typesAll]
  simp only [Code.Function.types, buildQuery, Code.Function.public, Code.Stmt.typesAll_eq_flatMap,
    List.map_nil, List.nil_append, Option.toList_some, List.singleton_append, List.mem_cons] at ht
  rcases ht with rfl | ht
  · rfl
  · rw [List.mem_singleton.mp (hbody ht)]
    rfl

theorem models_moduleOf (package : String) (ops : List Operation) :
    (moduleOf paths package ops).value.models = [] := by
  refine List.flatMap_eq_nil_iff.mpr fun i hi => List.flatMap_eq_nil_iff.mpr fun t ht => ?_
  simp only [moduleOf, Logged.value_bind, Logged.value_pure, List.mem_cons, List.not_mem_nil,
    or_false] at hi
  rcases hi with rfl | rfl
  · obtain ⟨_,hf,rfl⟩ := List.mem_map.mp ht
    obtain ⟨o,_,rfl⟩ := List.mem_map.mp hf
    simpa only [field, Ty.models] using models_ownedType o.scalar
  · simp only [Item.types, Code.Impl.types, Option.toList_none, List.nil_append, List.mem_cons,
      List.flatMap_map, List.mem_flatMap, List.mem_append, List.not_mem_nil, or_false] at ht
    rcases ht with rfl | ⟨f,hf,ht⟩
    · rfl
    · rcases hf with (rfl | hf) | rfl
      · have hnew : (Code.Member.function new).types = [.path "Self"] := rfl
        rw [hnew, List.mem_singleton] at ht
        rw [ht, Ty.models]
      · obtain ⟨o,_,rfl⟩ := List.mem_map.mp hf
        exact models_of_mem_setter ht
      · exact models_of_mem_buildQuery ht

end QueryOptions

/-- A reference in the files of calls is to a known model, with the path of the models. -/
theorem Calls.known_of_mem_models {models : List Model} {api : Api} {f : Code.File}
    (hf : f ∈ (Calls.files models api paths).value) {r : Option String × String}
    (hr : r ∈ f.module.models) : r.1 = some paths.models ∧ ∃ m ∈ models, m.name = r.2 := by
  rcases Calls.mem_files.mp hf with ⟨op,_,rfl⟩ | ⟨p,_,rfl | rfl⟩ | rfl
  · obtain ⟨i,hi,hr⟩ := List.mem_flatMap.mp hr
    rw [Calls.functionFile, Calls.moduleOf, List.mem_singleton] at hi
    subst hi
    obtain ⟨t,ht,hr⟩ := List.mem_flatMap.mp hr
    obtain ⟨hs,hk⟩ := Calls.covers_function ht r hr
    exact ⟨hs,ModelScope.knows_iff.mp hk⟩
  · rw [Calls.optionsFile, QueryOptions.models_moduleOf] at hr
    exact absurd hr List.not_mem_nil
  · obtain ⟨i,hi,hr⟩ := List.mem_flatMap.mp hr
    simp only [Calls.packageIndex, Calls.index, Calls.indexItems, List.mem_append, List.mem_cons,
      List.not_mem_nil, or_false, List.mem_flatMap] at hi
    rcases hi with (rfl | rfl) | ⟨op,_,rfl | rfl⟩ <;> exact absurd hr List.not_mem_nil
  · obtain ⟨i,hi,hr⟩ := List.mem_flatMap.mp hr
    obtain ⟨p,_,rfl⟩ := List.mem_map.mp hi
    exact absurd hr List.not_mem_nil

/-! ## Navigation -/

namespace Navigation
variable {p : Plan} {id : Nat}

theorem covers_nodeStruct {t : Ty} (ht : t ∈ (nodeStruct p paths id).body.types) :
    s.Covers t := by
  obtain ⟨_,hf,rfl⟩ := List.mem_map.mp ht
  rcases List.mem_cons.mp hf with rfl | hf
  · exact ModelScope.covers_of_models_eq_nil rfl
  · obtain ⟨c,_,rfl⟩ := List.mem_map.mp hf
    exact ModelScope.covers_of_models_eq_nil (models_ownedType c.scalar)

theorem covers_capturing (c : Captured) : s.Covers (capturing c).1.type := by
  apply ModelScope.covers_of_models_eq_nil
  unfold capturing
  split
  · rfl
  · exact models_ownedType _

theorem covers_childMethod {child : Nat} {t : Ty} (ht : t ∈ (childMethod p id child).types) :
    s.Covers t := by
  simp only [Code.Function.types, childMethod, Code.Stmt.typesAll, Code.Stmt.types,
    List.append_nil, Option.toList_some, List.mem_append, List.mem_singleton] at ht
  rcases ht with ht | rfl
  · simp only [List.map_map, List.mem_map, Option.mem_toList, Option.map_eq_some_iff] at ht
    obtain ⟨_,⟨c,_,rfl⟩,rfl⟩ := ht
    exact covers_capturing c
  · exact ModelScope.covers_of_models_eq_nil rfl

theorem covers_operationMethod {t : Ty} (ht : t ∈ (operationMethod p s paths id op).types) :
    s.Covers t := by
  simp only [Code.Function.types, operationMethod, Code.Stmt.typesAll, Code.Stmt.types,
    List.append_nil, Option.toList_some, List.mem_append, List.mem_singleton] at ht
  rcases ht with ht | rfl
  · obtain ⟨q,hq,rfl⟩ := List.mem_map.mp ht
    obtain ⟨argument,harg,hq⟩ := List.mem_filterMap.mp hq
    rcases List.mem_append.mp harg with harg | harg
    · rcases List.mem_append.mp harg with harg | harg
      · obtain ⟨⟨a,k⟩,_,rfl⟩ := List.mem_map.mp harg
        rcases pathArgument_snd (p.captured id) a ((owners p.tree op id)[k]?.getD none) with
          hnone | hsome
        · cases hq.symm.trans hnone
        · cases hq.symm.trans hsome
          exact covers_pathArgument a
      · obtain ⟨b,hb,rfl⟩ := Option.map_eq_some_iff.mp (Option.mem_toList.mp harg)
        cases hq
        exact covers_body hb
    · unfold optionsArgument at harg
      split at harg
      · rw [List.mem_singleton.mp harg] at hq
        cases hq
        exact ModelScope.covers_of_models_eq_nil rfl
      · exact absurd harg List.not_mem_nil
  · exact covers_result

theorem covers_nodeImpl {ops : List Operation} {t : Ty}
    (ht : t ∈ (nodeImpl p s paths ops id).types) : s.Covers t := by
  simp only [Code.Impl.types, nodeImpl, Option.toList_none, List.nil_append, List.mem_cons] at ht
  rcases ht with rfl | ht
  · exact ModelScope.covers_of_models_eq_nil rfl
  · obtain ⟨m,hm,ht⟩ := List.mem_flatMap.mp ht
    obtain ⟨f,rfl,rfl | ⟨child,_,name,rfl⟩ | ⟨i,_,op,_,name,rfl⟩⟩ := of_mem_members hm
    · have hnew : t ∈ [clientType paths,.path "Self"] := ht
      simp only [List.mem_cons, List.not_mem_nil, or_false] at hnew
      rcases hnew with rfl | rfl <;> exact ModelScope.covers_of_models_eq_nil rfl
    · exact covers_childMethod ht
    · exact covers_operationMethod ht

/-- A reference in navigation is to a known model, with the path of the models. -/
theorem known_of_mem_models {models : List Model} {ops : List Operation} {rootSegment : String}
    {r : Option String × String} (hr : r ∈ (moduleOf models ops rootSegment paths).value.models) :
    r.1 = some paths.models ∧ ∃ m ∈ models, m.name = r.2 := by
  obtain ⟨i,hi,hr⟩ := List.mem_flatMap.mp hr
  obtain ⟨t,ht,hr⟩ := List.mem_flatMap.mp hr
  have hcovers : (ModelScope.ofModels models (some paths.models)).Covers t := by
    obtain ⟨id,_,rfl | rfl⟩ := mem_items.mp hi
    · exact covers_nodeStruct ht
    · exact covers_nodeImpl ht
  obtain ⟨hs,hk⟩ := hcovers r hr
  exact ⟨hs,ModelScope.knows_iff.mp hk⟩

end Navigation

end ClientGen.Sdk

namespace ClientGen.Generator
open Sdk

/-- No reference dangles. A file of models imports all that it mentions of the others, which the
index exports once, and what the other passes mention is declared among the models. -/
theorem references_resolve (g : Generator) :
    (∀ f ∈ (g.files .models).value, f.module.Resolved ∧
      ∀ n ∈ f.module.imported, DataTypes.ExportedOnce (g.files .models).value n) ∧
    ∀ pass ≠ Pass.models, ∀ f ∈ (g.files pass).value, ∀ r ∈ f.module.models,
      r.1 = some g.paths.models ∧ ∃ file ∈ (g.files .models).value, file.module.Declares r.2 := by
  rw [value_files_models]
  have hdeclared {n : String} (hn : ∃ m ∈ g.models.value, m.name = n) :
      ∃ file ∈ (DataTypes.files g.models.value).value, file.module.Declares n := by
    obtain ⟨m,hm,rfl⟩ := hn
    obtain ⟨_,_,_,_,_,file,hfile,_,_,_,hdecl⟩ := DataTypes.exportedOnce_of_mem g.nodup_models hm
    exact ⟨file,hfile,(hdecl file hfile).mpr rfl⟩
  refine ⟨fun f hf => ⟨?_,fun n hn => ?_⟩,fun pass hpass f hf r hr => ?_⟩
  · exact DataTypes.resolved_of_mem_files g.nodup_models g.models_linked hf
  · obtain ⟨m,hm,rfl⟩ := DataTypes.exists_model_of_mem_imported hf hn
    exact DataTypes.exportedOnce_of_mem g.nodup_models hm
  · cases pass with
    | models => exact absurd rfl hpass
    | services =>
      rw [value_files_services] at hf
      obtain ⟨hs,hn⟩ := Calls.known_of_mem_models hf hr
      exact ⟨hs,hdeclared hn⟩
    | builder =>
      rw [value_files_builder, List.mem_singleton] at hf
      subst hf
      obtain ⟨hs,hn⟩ := Navigation.known_of_mem_models hr
      exact ⟨hs,hdeclared hn⟩

end ClientGen.Generator
