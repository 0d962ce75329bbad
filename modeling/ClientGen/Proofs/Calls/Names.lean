import ClientGen.Proofs.Calls.Scopes
import ClientGen.Proofs.Code.Names
import ClientGen.Proofs.FunctionNames

/-! # Names of calls

All names of the services pass are names of bindings, or handed out among some, but for the few
that every package has.
-/
namespace ClientGen.Sdk
open Code (Item)
open Ident (Declarable Plain)

namespace Signature
variable {op : Operation}

/-- All names in a signature can be declared. -/
theorem declarable_of_mem_names {name : String}
    (h : name ∈ argumentNames op ++ [bodyName op,"options"]) : Declarable name := by
  have hbody : Plain "request_body" := by decide
  have hoptions : Plain "options" := by decide
  simp only [List.mem_append, List.mem_cons, List.not_mem_nil, or_false] at h
  rcases h with h | rfl | rfl
  · exact Ident.declarable_of_mem_bindings h
  · exact (Declarable.plain hbody).reserve _
  · exact .plain hoptions

end Signature

namespace QueryOptions

theorem declarable_of_mem_named {params : List Merged} {o : QueryOption} (h : o ∈ named params) :
    Declarable o.name := by
  have hname : o.name ∈ (named params).map (·.name) := List.mem_map_of_mem h
  rw [map_name_named] at hname
  exact Ident.declarable_of_mem_bindings hname

theorem plain_setterName {params : List Merged} {o : QueryOption} (h : o ∈ named params) :
    Plain (setterName o) := by
  have hprefix : Ident.NameLike "with_".toList := ⟨by simp [Wordlike],'w',_,rfl,rfl⟩
  refine Ident.plain_of_underscore ?_ (by simp [setterName])
  rw [setterName, String.toList_append]
  exact hprefix.append (declarable_of_mem_named h).nameLike_unraw.wordlike

theorem declarable_moduleOf (paths : ModulePaths) (package : String) (ops : List Operation)
    {i : Item} (hi : i ∈ (moduleOf paths package ops).value.items) : i.Declarable := by
  let params := (merge package ops).value
  simp only [moduleOf, Logged.value_bind, Logged.value_pure, List.mem_cons, List.not_mem_nil,
    or_false] at hi
  rcases hi with rfl | rfl
  · have hstruct : Plain "Options" := by decide
    intro n hn
    rcases List.mem_cons.mp hn with rfl | hn
    · exact .plain hstruct
    · simp only [Code.Struct.fieldNames, List.map_map] at hn
      obtain ⟨o,ho,rfl⟩ := List.mem_map.mp hn
      exact declarable_of_mem_named ho
  · refine Item.declarable_impl fun m hm => ?_
    obtain ⟨f,hf,rfl⟩ := List.mem_map.mp hm
    rcases List.mem_append.mp hf with hf | hf
    · rcases List.mem_cons.mp hf with rfl | hf
      · exact Ident.declarable_of_forall_plain (show ∀ n ∈ ["new"], Plain n by decide)
      · obtain ⟨o,ho,rfl⟩ := List.mem_map.mp hf
        have hvalue : Plain "value" := by decide
        intro n hn
        rw [Code.Member.declaredNames, (setter_eq o).1, (setter_eq o).2] at hn
        simp only [List.mem_cons, List.not_mem_nil, or_false] at hn
        rcases hn with rfl | rfl
        · exact .plain (plain_setterName ho)
        · exact .plain hvalue
    · rw [List.mem_singleton.mp hf]
      exact Ident.declarable_of_forall_plain (show ∀ n ∈ ["build_query_string"], Plain n by decide)

end QueryOptions

namespace Calls
variable {models : List Model} {api : Api} {paths : ModulePaths}

theorem declarable_function (scope : ModelScope) (paths : ModulePaths) {op : Operation}
    (h : op.Extracted) : (Item.function (function scope paths op)).Declarable := by
  have hclient : Plain "client" := by decide
  intro n hn
  rcases List.mem_cons.mp hn with rfl | hn
  · exact h.declarable_function
  · rcases List.mem_cons.mp ((sublist_params scope paths op).subset hn) with rfl | hn
    · exact .plain hclient
    · exact Signature.declarable_of_mem_names hn

/-- Every name in a file of services can be declared. -/
theorem declarable_files (hx : ∀ op ∈ api.operations, op.Extracted) {f : Code.File}
    (hf : f ∈ (files models api paths).value) {i : Item} (hi : i ∈ f.module.items) :
    i.Declarable := by
  have hoptions : Plain "options" := by decide
  rcases mem_files.mp hf with ⟨op,hop,rfl⟩ | ⟨package,_,rfl | rfl⟩ | rfl
  · rw [List.mem_singleton.mp hi]
    exact declarable_function _ paths (hx op hop)
  · exact QueryOptions.declarable_moduleOf paths package _ hi
  · simp only [packageIndex, index, List.mem_append, List.mem_cons, List.mem_flatMap,
      indexItems, List.not_mem_nil, or_false] at hi
    intro n hn
    rcases hi with (rfl | rfl) | ⟨op,hop,rfl | rfl⟩
    · rw [List.mem_singleton.mp hn]
      exact .plain hoptions
    · exact absurd hn List.not_mem_nil
    · rw [List.mem_singleton.mp hn]
      exact (hx op (Api.mem_operationsOf.mp hop).1).declarable_function
    · exact absurd hn List.not_mem_nil
  · obtain ⟨package,_,rfl⟩ := List.mem_map.mp hi
    intro n hn
    rw [List.mem_singleton.mp hn]
    exact Ident.declarable_bindingName package

end Calls
end ClientGen.Sdk
