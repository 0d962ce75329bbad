import ClientGen.Proofs.Calls.Files
import ClientGen.Proofs.Code.Scopes
import ClientGen.Proofs.Signature

/-! # Scopes of calls

The options of a package and the functions of operations. A setter's name is the bare name of its
field behind a prefix that no other function there begins with.
-/
namespace ClientGen.Sdk
open Code (Item)
open Ident (Apart Escaped)
variable {kept : String → String → Prop}

namespace QueryOptions

/-! ## Options -/

theorem map_name_named (params : List Merged) : (named params).map (·.name) =
    Ident.reserveAll Ident.reserve [] (params.map fun m => Ident.bindingName m.param.name) := by
  simp only [named]
  rw [← List.map_uncurry_zip_eq_zipWith, List.map_map]
  exact List.map_fst_zip (by simp)

theorem apart_names (params : List Merged) : Apart ((named params).map (·.name)) := by
  rw [map_name_named]
  exact Ident.apart_reserveAll _ _ _

theorem escaped_of_mem_named {params : List Merged} {o : QueryOption} (h : o ∈ named params) :
    Escaped o.name := by
  have hname : o.name ∈ (named params).map (·.name) := List.mem_map_of_mem h
  rw [map_name_named] at hname
  refine Ident.escaped_of_mem_reserveAll ?_ hname
  intro base hbase
  obtain ⟨m,_,rfl⟩ := List.mem_map.mp hbase
  exact Ident.escaped_bindingName m.param.name

def setterName (o : QueryOption) : String :=
  "with_" ++ Ident.unraw o.name

theorem setter_eq (o : QueryOption) :
    (setter o).name = setterName o ∧ (setter o).paramNames = ["value"] := by
  unfold setter
  cases o.scalar <;> exact ⟨rfl,rfl⟩

theorem wordlike_setterName {params : List Merged} {o : QueryOption} (h : o ∈ named params) :
    Wordlike (setterName o).toList := by
  have hprefix : Wordlike "with_".toList := by simp [Wordlike]
  rw [setterName, String.toList_append]
  exact hprefix.append (escaped_of_mem_named h).wordlike_unraw

/-- What does not begin as setters do is no name of one. -/
theorem not_mem_setterNames (os : List QueryOption) {name : String}
    (h : name.toList.head? ≠ some 'w') : name ∉ os.map setterName := by
  intro hname
  obtain ⟨o,_,rfl⟩ := List.mem_map.mp hname
  refine h ?_
  rw [setterName, String.toList_append]
  rfl

theorem nodup_setterNames (params : List Merged) : ((named params).map setterName).Nodup := by
  have hbare : ((named params).map fun o => Ident.unraw o.name).Nodup := by
    have hnames := apart_names params
    rwa [Apart, List.map_map] at hnames
  have hinjective : Function.Injective fun name => "with_" ++ name := by
    intro a b h
    exact (String.append_right_inj "with_").mp h
  have hsetters := hbare.map hinjective
  rwa [List.map_map] at hsetters

theorem apart_memberNames (params : List Merged) :
    Apart ("new" :: (named params).map setterName ++ ["build_query_string"]) := by
  have hnew : "new" ∉ (named params).map setterName := not_mem_setterNames _ (by decide)
  have hbuild : "build_query_string" ∉ (named params).map setterName :=
    not_mem_setterNames _ (by decide)
  apply Ident.apart_of_not_isRaw
  · have hmiddle : ((named params).map setterName ++ ["build_query_string"]).Nodup := by
      rw [← List.concat_eq_append]
      exact (nodup_setterNames params).concat hbuild
    refine List.nodup_cons.mpr ⟨?_,hmiddle⟩
    intro h
    rcases List.mem_append.mp h with h | h
    · exact hnew h
    · exact absurd (List.mem_singleton.mp h) (by decide)
  · intro name hname
    apply Ident.not_isRaw_of_wordlike
    rcases List.mem_append.mp hname with hname | hname
    · rcases List.mem_cons.mp hname with rfl | hname
      · simp [Wordlike]
      · obtain ⟨o,ho,rfl⟩ := List.mem_map.mp hname
        exact wordlike_setterName ho
    · rw [List.mem_singleton.mp hname]
      simp [Wordlike]

theorem apart_moduleOf (paths : ModulePaths) (package : String) (ops : List Operation) {i : Item}
    (hi : i ∈ (moduleOf paths package ops).value.items) : i.ScopesApart kept := by
  let params := (merge package ops).value
  simp only [moduleOf, Logged.value_bind, Logged.value_pure, List.mem_cons, List.not_mem_nil,
    or_false] at hi
  rcases hi with rfl | rfl
  · have hfields : ((named params).map field).map (·.name) = (named params).map (·.name) := by
      rw [List.map_map]
      rfl
    show Apart (((named params).map field).map (·.name))
    rw [hfields]
    exact apart_names params
  · refine ⟨?_,?_⟩
    · have hnames : ((new :: (named params).map setter ++ [buildQuery paths (named params)]).map
          Code.Member.function).map Code.Member.name =
            "new" :: (named params).map setterName ++ ["build_query_string"] := by
        simp only [List.map_append, List.map_cons, List.map_map, List.map_nil]
        have hsetters : (named params).map (Code.Member.name ∘ Code.Member.function ∘ setter) =
            (named params).map setterName :=
          List.map_congr_left fun o _ => (setter_eq o).1
        rw [hsetters]
        rfl
      rw [hnames]
      exact apart_memberNames params
    · intro m hm
      obtain ⟨f,hf,rfl⟩ := List.mem_map.mp hm
      rcases List.mem_append.mp hf with hf | hf
      · rcases List.mem_cons.mp hf with rfl | hf
        · exact List.nodup_nil
        · obtain ⟨o,_,rfl⟩ := List.mem_map.mp hf
          rw [Code.Member.ParamsApart, (setter_eq o).2]
          exact List.nodup_singleton _
      · rw [List.mem_singleton.mp hf]
        exact List.nodup_nil

end QueryOptions

namespace Calls
variable {models : List Model} {api : Api} {paths : ModulePaths}

/-! ## Functions -/

theorem sublist_params (scope : ModelScope) (paths : ModulePaths) (op : Operation) :
    ((params op (Signature.ofOperation scope paths op) paths).map (·.name)).Sublist
      ("client" :: (Signature.argumentNames op ++ [Signature.bodyName op,"options"])) := by
  let s := Signature.ofOperation scope paths op
  have hpath : (s.path.map PathArgument.param).map (·.name) = Signature.argumentNames op := by
    rw [List.map_map]
    exact Signature.map_name_path scope paths op
  have hbody : ((s.body.map BodyArgument.param).toList.map (·.name)).Sublist
      [Signature.bodyName op] := by
    simp only [s, Signature.ofOperation]
    cases op.body with
    | none => exact List.nil_sublist _
    | some t => exact List.Sublist.refl _
  have hoptions : ((if op.hasQuery then
      [(⟨"options",.ref none (.path "super::Options")⟩ : Code.Param)] else []).map
      (·.name)).Sublist ["options"] := by
    split
    · exact List.Sublist.refl _
    · exact List.nil_sublist _
  rw [params, List.append_assoc, List.append_assoc, List.map_append, List.map_append,
    List.map_append, hpath]
  exact ((List.Sublist.refl _).append (hbody.append hoptions)).cons_cons "client"

theorem apart_params (scope : ModelScope) (paths : ModulePaths) (op : Operation) :
    Apart (function scope paths op).paramNames := by
  have hreserved : "client" ∈ reservedArguments := by decide
  have hclient : "client" ∉ Signature.argumentNames op ++ [Signature.bodyName op,"options"] := by
    intro h
    rcases List.mem_append.mp h with h | h
    · exact Signature.not_mem_argumentNames hreserved h
    · rcases List.mem_cons.mp h with h | h
      · exact Signature.bodyName_not_mem op (h ▸ List.mem_append_right _ hreserved)
      · exact absurd (List.mem_singleton.mp h) (by decide)
  have hnodup := List.nodup_cons.mpr ⟨hclient,Signature.nodup_names op⟩
  apply Ident.apart_of_escaped (hnodup.sublist (sublist_params scope paths op))
  intro name hname
  rcases List.mem_cons.mp ((sublist_params scope paths op).subset hname) with rfl | hname
  · exact Signature.escaped_reserved (by decide)
  · exact Signature.escaped_of_mem_names hname

/-- The parameters that stand for the path and the body of the operation leave alone the names that
the function uses itself. -/
structure LeavesReserved (op : Operation) (s : Signature) (paths : ModulePaths)
    (f : Code.Function) : Prop where
  params : f.params = Calls.params op s paths
  path : ∀ a ∈ s.path, Ident.unraw a.name ∉ reservedArguments
  body : ∀ b ∈ s.body, Ident.unraw b.name ∉ reservedArguments

theorem leavesReserved_function (scope : ModelScope) (paths : ModulePaths) (op : Operation) :
    LeavesReserved op (.ofOperation scope paths op) paths (function scope paths op) where
  params := rfl
  path a ha := by
    have hname : a.name ∈ Signature.argumentNames op := by
      rw [← Signature.map_name_path scope paths op]
      exact List.mem_map_of_mem ha
    exact Signature.unraw_not_mem_reserved (List.mem_append_left _ hname)
  body b hb := by
    obtain ⟨t,_,rfl⟩ := Option.map_eq_some_iff.mp hb
    exact Signature.unraw_not_mem_reserved (List.mem_append_right _ (List.mem_singleton_self _))

/-! ## Files -/

theorem exists_operation_of_function {f : Code.File} (hf : f ∈ (files models api paths).value)
    {fn : Code.Function} (hfn : .function fn ∈ f.module.items) : ∃ op ∈ api.operations,
      fn = function (.ofModels models (some paths.models)) paths op := by
  rcases mem_files.mp hf with ⟨op,hop,rfl⟩ | ⟨package,_,rfl | rfl⟩ | rfl
  · exact ⟨op,hop,Item.function.inj (List.mem_singleton.mp hfn)⟩
  · simp [optionsFile, QueryOptions.moduleOf] at hfn
  · simp [packageIndex, index, indexItems] at hfn
  · simp [root] at hfn

theorem apart_files {f : Code.File} (hf : f ∈ (files models api paths).value) {i : Item}
    (hi : i ∈ f.module.items) : i.ScopesApart kept := by
  rcases mem_files.mp hf with ⟨op,_,rfl⟩ | ⟨package,_,rfl | rfl⟩ | rfl
  · rw [List.mem_singleton.mp hi]
    exact apart_params _ paths op
  · exact QueryOptions.apart_moduleOf paths package _ hi
  · simp only [packageIndex, index, List.mem_append, List.mem_cons, List.mem_flatMap,
      indexItems, List.not_mem_nil, or_false] at hi
    rcases hi with (rfl | rfl) | ⟨_,_,rfl | rfl⟩ <;> trivial
  · obtain ⟨_,_,rfl⟩ := List.mem_map.mp hi
    trivial

end Calls
end ClientGen.Sdk
