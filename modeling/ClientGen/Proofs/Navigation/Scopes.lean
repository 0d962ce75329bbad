import ClientGen.Proofs.Code.Mentions
import ClientGen.Proofs.Code.Scopes
import ClientGen.Proofs.Extract.Functions
import ClientGen.Proofs.Navigation.Arguments
import ClientGen.Proofs.Navigation.Captured
import ClientGen.Proofs.Navigation.Items
import ClientGen.Proofs.RouteTree.Walk

/-! # Scopes of navigation

A node's struct has a name of its own, because a walk reaches the node once and only its parent
leads to it. A captured value has a field of its own in all structs below, and the ways onward and
the operations of a node have names of their own among its methods.
-/
namespace ClientGen.Sdk.Navigation
open Code (Item)
open Ident (Apart Escaped IsRaw)
variable {ops : List Operation} {rootSegment : String} {paths : ModulePaths}
  {scope : ModelScope} {kept : String → String → Prop}

theorem escaped_client : Escaped "client" :=
  Signature.escaped_reserved (by decide)

/-! ## Struct names -/

theorem alnum_label (s : Segment) : Ident.Alnum (label s).toList := by
  cases s with
  | root => exact .of_all (by decide)
  | literal text => exact Ident.alnum_variantName text
  | param name type => exact Ident.alnum_variantName name

theorem alnum_structBase (t : RouteTree) (start id : Nat) :
    Ident.Alnum (structBase t start id).toList := by
  have hbuilder : Ident.Alnum "Builder".toList := .of_all (by decide)
  rw [structBase, String.toList_append, String.toList_join]
  refine Ident.Alnum.append (.flatMap ?_) hbuilder
  intro text htext
  obtain ⟨n,_,rfl⟩ := List.mem_map.mp htext
  exact alnum_label _

section
variable (t : RouteTree) (start : Nat)

/-- The names handed out to the nodes below the start. -/
def namesBelow : List String :=
  Ident.reserveAll Ident.reserveType [entryName] ((descendants t start).map (structBase t start))

theorem structsOf_eq : structsOf t start =
    (start,entryName) :: (descendants t start).zip (namesBelow t start) := rfl

theorem nodup_structNames : ((structsOf t start).map (·.2)).Nodup := by
  rw [structsOf_eq, List.map_cons, List.map_snd_zip (by simp [namesBelow])]
  refine List.nodup_cons.mpr ⟨?_,Ident.reserveType_fresh.nodup_reserveAll _ _⟩
  intro hentry
  exact Ident.reserveType_fresh.not_mem_of_mem_reserveAll hentry List.mem_cons_self

theorem not_isRaw_of_mem_structsOf {named : Nat × String} (h : named ∈ structsOf t start) :
    ¬ IsRaw named.2 := by
  rw [structsOf_eq] at h
  rcases List.mem_cons.mp h with rfl | h
  · exact Ident.not_isRaw_of_wordlike (by simp [entryName, Wordlike])
  · have hname : named.2 ∈ namesBelow t start := (List.of_mem_zip h).2
    refine Ident.of_mem_reserveAll (P := fun n => ¬ IsRaw n)
      (fun _ used hbase => Ident.not_isRaw_reserveType hbase used) ?_ hname
    intro base hbase
    obtain ⟨id,_,rfl⟩ := List.mem_map.mp hbase
    exact Ident.not_isRaw_of_wordlike (alnum_structBase t start id).wordlike

end

section
variable {t : RouteTree}

/-- Every node of the file is planned a struct, under the name that the plan finds for it. -/
theorem mem_structsOf {id : Nat} (h : id ∈ (Plan.of t rootSegment).order) :
    (id,(Plan.of t rootSegment).structName id) ∈ structsOf t (startNode t rootSegment) := by
  let start := startNode t rootSegment
  have hplanned : ∃ name, (id,name) ∈ structsOf t start := by
    by_cases hid : id = start
    · exact ⟨entryName,hid ▸ List.mem_cons_self⟩
    · obtain ⟨parent,hparent,hchild⟩ := RouteTree.exists_parent_of_mem_walk h hid
      have hbelow : id ∈ descendants t start := List.mem_flatMap.mpr ⟨parent,hparent,hchild⟩
      have hfst : ((descendants t start).zip (namesBelow t start)).map Prod.fst =
          descendants t start := List.map_fst_zip (by simp [namesBelow])
      rw [← hfst] at hbelow
      obtain ⟨⟨_,name⟩,hz,rfl⟩ := List.mem_map.mp hbelow
      exact ⟨name,List.mem_cons_of_mem _ hz⟩
  obtain ⟨name,hname⟩ := hplanned
  have hsome := List.lookup_isSome_iff.mpr ⟨_,hname,beq_self_eq_true id⟩
  obtain ⟨given,hgiven⟩ := Option.isSome_iff_exists.mp hsome
  have hstruct : (Plan.of t rootSegment).structName id = given := by
    show ((structsOf t start).lookup id).getD entryName = given
    rw [hgiven, Option.getD_some]
  obtain ⟨before,after,hsplit,_⟩ := List.lookup_eq_some_iff.mp hgiven
  rw [hstruct]
  show _ ∈ structsOf t start
  rw [hsplit]
  exact List.mem_append_right _ List.mem_cons_self

/-- Nodes with the same struct are the same. -/
theorem eq_of_structName_eq {a b : Nat} (ha : a ∈ (Plan.of t rootSegment).order)
    (hb : b ∈ (Plan.of t rootSegment).order)
    (h : (Plan.of t rootSegment).structName a = (Plan.of t rootSegment).structName b) : a = b := by
  have hsame := List.inj_on_of_nodup_map (nodup_structNames t _) (mem_structsOf ha)
    (mem_structsOf hb) h
  exact congrArg Prod.fst hsame

end

theorem apart_structNames (ops : List Operation) (rootSegment : String) :
    Apart ((Plan.of (.build ops) rootSegment).order.map
      (Plan.of (.build ops) rootSegment).structName) := by
  apply Ident.apart_of_not_isRaw
  · refine (RouteTree.nodup_walk _).map_on ?_
    intro a ha b hb h
    exact eq_of_structName_eq ha hb h
  · intro name hname
    obtain ⟨id,hid,rfl⟩ := List.mem_map.mp hname
    exact not_isRaw_of_mem_structsOf _ _ (mem_structsOf hid)

/-! ## Fields -/

variable {p : Plan} {id : Nat}

/-- What holds of all names handed out for bindings holds of the fields of captured values. -/
theorem of_mem_captured {P : String → Prop}
    (hP : ∀ name used, P (Ident.reserve (Ident.bindingName name) used).1) (p : Plan) (id : Nat) :
    ∀ c ∈ p.captured id, P c.field := by
  have hcapture {cs : List Captured} (h : ∀ c ∈ cs, P c.field) (id : Nat) :
      ∀ c ∈ capture p.tree cs id, P c.field := by
    intro c hc
    unfold capture at hc
    split at hc
    · rename_i name type _
      rcases List.mem_append.mp hc with hc | hc
      · exact h c hc
      · rw [List.mem_singleton.mp hc]
        dsimp only
        exact hP name _
    · exact h c hc
  have hfold (ns : List Nat) : ∀ cs : List Captured, (∀ c ∈ cs, P c.field) →
      ∀ c ∈ ns.foldl (capture p.tree) cs, P c.field := by
    induction ns with
    | nil => exact fun cs h => h
    | cons n ns ih => exact fun cs h => ih _ (hcapture h n)
  exact hfold _ [] (by simp)

theorem escaped_captured (p : Plan) (id : Nat) : ∀ c ∈ p.captured id, Escaped c.field :=
  of_mem_captured (fun name used => (Ident.escaped_bindingName name).reserve used) p id

theorem fieldNames_nodeStruct (p : Plan) (paths : ModulePaths) (id : Nat) :
    (nodeStruct p paths id).fieldNames = "client" :: (p.captured id).map (·.field) := by
  simp only [nodeStruct, Code.Struct.fieldNames, List.map_cons, List.map_map]
  rfl

theorem apart_nodeStruct (p : Plan) (paths : ModulePaths) (id : Nat) :
    Apart (nodeStruct p paths id).fieldNames := by
  rw [fieldNames_nodeStruct]
  apply Ident.apart_of_escaped (nodup_fields p id)
  intro name hname
  rcases List.mem_cons.mp hname with rfl | hname
  · exact escaped_client
  · obtain ⟨c,hc,rfl⟩ := List.mem_map.mp hname
    exact escaped_captured p id c hc

/-! ## Methods -/

theorem escaped_methodName (s : Segment) : Escaped (methodName s) := by
  cases s with
  | root => exact .plain (by simp [methodName, Wordlike]) (by decide)
  | literal text => exact Ident.escaped_bindingName text
  | param name type => exact Ident.escaped_bindingName name

theorem map_name_distinctlyNamed (used : List String) (fs : List Code.Function) :
    (distinctlyNamed used fs).map (·.name) =
      Ident.reserveAll Ident.reserve used (fs.map (·.name)) := by
  rw [distinctlyNamed, ← List.map_uncurry_zip_eq_zipWith, List.map_map]
  exact List.map_snd_zip (by simp)

/-- Functions given beforehand and others renamed apart from them have names of their own. -/
theorem apart_distinctlyNamed {given fs : List Code.Function}
    (hnodup : (given.map (·.name)).Nodup) (hgiven : ∀ f ∈ given, Escaped f.name)
    (hfs : ∀ f ∈ fs, Escaped f.name) :
    Apart ((given ++ distinctlyNamed (given.map (·.name)) fs).map (·.name)) := by
  rw [List.map_append, map_name_distinctlyNamed]
  apply Ident.apart_of_escaped
  · refine hnodup.append (Ident.reserve_fresh.nodup_reserveAll _ _) ?_
    intro name hname hreserved
    exact Ident.reserve_fresh.not_mem_of_mem_reserveAll hreserved hname
  · intro name hname
    rcases List.mem_append.mp hname with hname | hname
    · obtain ⟨f,hf,rfl⟩ := List.mem_map.mp hname
      exact hgiven f hf
    · refine Ident.escaped_of_mem_reserveAll ?_ hname
      intro base hbase
      obtain ⟨f,hf,rfl⟩ := List.mem_map.mp hbase
      exact hfs f hf

theorem apart_memberNames (hx : ∀ op ∈ ops, op.Extracted) :
    Apart ((nodeImpl p scope paths ops id).members.map Code.Member.name) := by
  have hnames {fs : List Code.Function} (h : Apart (fs.map (·.name))) :
      Apart ((fs.map Code.Member.function).map Code.Member.name) := by
    rw [List.map_map]
    exact h
  refine hnames (apart_distinctlyNamed ?_ ?_ ?_)
  · split
    · exact List.nodup_singleton _
    · exact List.nodup_nil
  · intro f hf
    split at hf
    · have hnew : Escaped "new" := .plain (by simp [Wordlike]) (by decide)
      rw [List.mem_singleton.mp hf]
      exact hnew
    · cases hf
  · intro f hf
    rcases List.mem_append.mp hf with hf | hf
    · obtain ⟨child,_,rfl⟩ := List.mem_map.mp hf
      exact escaped_methodName _
    · obtain ⟨op,hop,rfl⟩ := List.mem_map.mp hf
      obtain ⟨_,_,hget⟩ := List.mem_filterMap.mp hop
      exact (hx op (List.mem_of_getElem? hget)).escaped_function

theorem apart_params_operationMethod (p : Plan) (scope : ModelScope) (paths : ModulePaths)
    (id : Nat) (op : Operation) : Apart (operationMethod p scope paths id op).paramNames := by
  apply Ident.apart_of_escaped (nodup_params p scope paths id op)
  intro name hname
  exact Signature.escaped_of_mem_names ((sublist_params p scope paths id op).subset hname)

theorem apart_params_childMethod (p : Plan) (parent child : Nat) :
    Apart (childMethod p parent child).paramNames := by
  unfold Code.Function.paramNames childMethod
  cases ownCapture? p child with
  | none => exact List.nodup_nil
  | some c => exact List.nodup_singleton _

theorem apart_nodeImpl (hx : ∀ op ∈ ops, op.Extracted) :
    (nodeImpl p scope paths ops id).ScopesApart where
  members := apart_memberNames hx
  params := by
    intro m hm
    obtain ⟨f,rfl,rfl | ⟨child,_,name,rfl⟩ | ⟨_,_,op,_,name,rfl⟩⟩ := of_mem_members hm
    · exact List.nodup_singleton _
    · exact .renamed (apart_params_childMethod p id child) name
    · exact .renamed (apart_params_operationMethod p scope paths id op) name

/-! ## The file -/

variable {models : List Model}

theorem apart_moduleOf (hx : ∀ op ∈ ops, op.Extracted) {i : Item}
    (hi : i ∈ (moduleOf models ops rootSegment paths).value.items) : i.ScopesApart kept := by
  obtain ⟨id,_,rfl | rfl⟩ := mem_items.mp hi
  · exact apart_nodeStruct _ paths id
  · exact apart_nodeImpl hx

/-- The types that the file declares are the structs of the nodes. -/
theorem declared_moduleOf :
    (moduleOf models ops rootSegment paths).value.items.filterMap Item.declared? =
      (Plan.of (.build ops) rootSegment).order.map
        (Plan.of (.build ops) rootSegment).structName := by
  simp only [moduleOf, Logged.value_bind, Logged.value_pure, List.filterMap_flatMap]
  rw [List.map_eq_flatMap]
  rfl

theorem apart_declared (models : List Model) (ops : List Operation) (rootSegment : String)
    (paths : ModulePaths) :
    Apart ((moduleOf models ops rootSegment paths).value.items.filterMap Item.declared?) := by
  rw [declared_moduleOf]
  exact apart_structNames ops rootSegment

end ClientGen.Sdk.Navigation
