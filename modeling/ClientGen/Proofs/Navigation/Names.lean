import ClientGen.Proofs.Calls.Names
import ClientGen.Proofs.Ident.Capitals
import ClientGen.Proofs.Navigation.Scopes

/-! # Names of navigation

Structs are named as types are, from the segments on the way to their nodes. Captured values and
methods are named as bindings.
-/
namespace ClientGen.Sdk.Navigation
open Code (Item)
open Ident (Declarable Plain)
variable {models : List Model} {ops : List Operation} {rootSegment : String} {paths : ModulePaths}
  {scope : ModelScope} {p : Plan} {id : Nat}

/-! ## Structs -/

theorem begins_label (s : Segment) : Ident.Begins (·.isUpper = true) (label s).toList := by
  have hvariant (text : String) :
      Ident.Begins (·.isUpper = true) (Ident.variantName text).toList := by
    obtain ⟨c,rest,hname,hupper⟩ := (Ident.capital_variantName text).first
    rw [hname]
    simpa [Ident.Begins] using hupper
  cases s with
  | root => simp [label, Ident.Begins]
  | literal text => exact hvariant text
  | param name type => exact hvariant name

theorem capital_structBase (t : RouteTree) (start id : Nat) :
    Ident.Capital (structBase t start id).toList := by
  have hbuilder : Ident.Begins (·.isUpper = true) "Builder".toList := by simp [Ident.Begins]
  have hlabels : Ident.Begins (·.isUpper = true)
      (String.join ((below t start id).map fun n => label (t.segmentOf n))).toList := by
    rw [String.toList_join]
    refine .flatMap fun text htext => ?_
    obtain ⟨n,_,rfl⟩ := List.mem_map.mp htext
    exact begins_label _
  have hall := hlabels.append hbuilder
  have hbase : structBase t start id = String.join ((below t start id).map fun n =>
      label (t.segmentOf n)) ++ "Builder" := rfl
  refine ⟨alnum_structBase t start id,?_,?_⟩
  · rw [hbase, String.toList_append]
    obtain ⟨c,rest,hname⟩ := List.exists_cons_of_ne_nil (List.append_ne_nil_of_right_ne_nil
      (String.join ((below t start id).map fun n => label (t.segmentOf n))).toList
      (show "Builder".toList ≠ [] by decide))
    exact ⟨c,rest,hname,hall c (by rw [hname]; rfl)⟩
  · intro hself
    have hlength := congrArg List.length hself
    rw [hbase, String.toList_append, List.length_append] at hlength
    simp at hlength

theorem plain_of_mem_structsOf {t : RouteTree} {start : Nat} {named : Nat × String}
    (h : named ∈ structsOf t start) : Plain named.2 := by
  rw [structsOf_eq] at h
  rcases List.mem_cons.mp h with rfl | h
  · have hentry : Plain entryName := by decide
    exact hentry
  · refine Ident.plain_of_mem_reserveAll ?_ (List.of_mem_zip h).2
    intro base hbase
    obtain ⟨id,_,rfl⟩ := List.mem_map.mp hbase
    exact (capital_structBase t start id).plain

theorem declarable_captured (p : Plan) (id : Nat) : ∀ c ∈ p.captured id, Declarable c.field :=
  of_mem_captured (fun name used => (Ident.declarable_bindingName name).reserve used) p id

theorem declarable_nodeStruct {t : RouteTree} (hid : id ∈ (Plan.of t rootSegment).order) :
    (Item.struct (nodeStruct (.of t rootSegment) paths id)).Declarable := by
  have hclient : Plain "client" := by decide
  intro n hn
  rcases List.mem_cons.mp hn with rfl | hn
  · exact .plain (plain_of_mem_structsOf (mem_structsOf hid))
  · rw [fieldNames_nodeStruct] at hn
    rcases List.mem_cons.mp hn with rfl | hn
    · exact .plain hclient
    · obtain ⟨c,hc,rfl⟩ := List.mem_map.mp hn
      exact declarable_captured _ id c hc

/-! ## Methods -/

theorem declarable_methodName (s : Segment) : Declarable (methodName s) := by
  cases s with
  | root =>
    have hroot : Plain "root" := by decide
    exact .plain hroot
  | literal text => exact Ident.declarable_bindingName text
  | param name type => exact Ident.declarable_bindingName name

theorem declarable_memberName (hx : ∀ op ∈ ops, op.Extracted) {f : Code.Function}
    (hf : .function f ∈ (nodeImpl p scope paths ops id).members) : Declarable f.name := by
  obtain ⟨_,hmem,he⟩ := List.mem_map.mp hf
  cases he
  rcases List.mem_append.mp hmem with hmem | hmem
  · have hnew : Plain "new" := by decide
    split at hmem
    · rw [List.mem_singleton.mp hmem]
      exact .plain hnew
    · cases hmem
  · have hname := List.mem_map_of_mem (f := (·.name)) hmem
    rw [map_name_distinctlyNamed] at hname
    refine Ident.declarable_of_mem_reserveAll ?_ hname
    intro base hbase
    obtain ⟨g,hg,rfl⟩ := List.mem_map.mp hbase
    rcases List.mem_append.mp hg with hg | hg
    · obtain ⟨child,_,rfl⟩ := List.mem_map.mp hg
      exact declarable_methodName _
    · obtain ⟨op,hop,rfl⟩ := List.mem_map.mp hg
      obtain ⟨_,_,hget⟩ := List.mem_filterMap.mp hop
      exact (hx op (List.mem_of_getElem? hget)).declarable_function

theorem declarable_paramName_childMethod (parent : Nat) {child : Nat} {n : String}
    (h : n ∈ (childMethod p parent child).paramNames) : Declarable n := by
  simp only [childMethod, Code.Function.paramNames, List.mem_map, Option.mem_toList,
    Option.map_eq_some_iff, exists_exists_and_eq_and] at h
  obtain ⟨c,hc,rfl⟩ := h
  have hmem : c ∈ p.captured child :=
    List.mem_of_getLast? (Option.filter_eq_some_iff.mp hc).1
  have hfield : (capturing c).1.name = c.field := by
    unfold capturing
    cases c.scalar <;> rfl
  rw [hfield]
  exact declarable_captured p child c hmem

theorem declarable_nodeImpl (hx : ∀ op ∈ ops, op.Extracted) :
    (Item.impl (nodeImpl p scope paths ops id)).Declarable := by
  refine Item.declarable_impl fun m hm => ?_
  obtain ⟨f,rfl,hf⟩ := of_mem_members hm
  intro n hn
  rcases List.mem_cons.mp hn with rfl | hn
  · exact declarable_memberName hx hm
  · rcases hf with rfl | ⟨child,_,name,rfl⟩ | ⟨_,_,op,_,name,rfl⟩
    · have hclient : Plain "client" := by decide
      rw [List.mem_singleton.mp hn]
      exact .plain hclient
    · exact declarable_paramName_childMethod id hn
    · have hparam : n ∈ (operationMethod p scope paths id op).paramNames := hn
      exact Signature.declarable_of_mem_names ((sublist_params p scope paths id op).subset hparam)

/-- Every name in the file can be declared. -/
theorem declarable_moduleOf (hx : ∀ op ∈ ops, op.Extracted) {i : Item}
    (hi : i ∈ (moduleOf models ops rootSegment paths).value.items) : i.Declarable := by
  obtain ⟨id,hid,rfl | rfl⟩ := mem_items.mp hi
  · exact declarable_nodeStruct hid
  · exact declarable_nodeImpl hx

end ClientGen.Sdk.Navigation
