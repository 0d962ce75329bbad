import ClientGen.Proofs.Extract.PathParams
import ClientGen.Proofs.Navigation.Arguments
import ClientGen.Proofs.Navigation.Captured
import ClientGen.Proofs.Navigation.Items
import ClientGen.Proofs.Template.Segments

/-! # Path values

What the method of an operation passes for each placeholder of the path: the value captured at the
segment of this very placeholder, if there is one that fits, and else a parameter of its own.
-/
namespace ClientGen

namespace Code

/-- The arguments of the call that a function consists of. -/
def Function.passed (f : Function) : List Expr :=
  match f.body with
  | [.result (.await (.call _ args))] => args
  | _ => []

end Code

namespace Sdk.Navigation
open Code (Expr)

/-! ## Captured values told apart -/

theorem Passes.cases {c : Captured} {wanted : Scalar} {e : Expr} (h : Passes c wanted e) :
    e = self c.field ∨ e = .ref (self c.field) ∨
      e = .ref (.method (self c.field) "to_string" []) := by
  cases h with
  | text _ => exact .inr (.inl rfl)
  | value _ _ => exact .inl rfl
  | shown _ => exact .inr (.inr rfl)

theorem self_injective {f g : String} (h : self f = self g) : f = g := by
  rw [self, self, Expr.path.injEq] at h
  exact (String.append_right_inj "self.").mp h

/-- What is passed tells the field. -/
theorem Passes.field_eq {c d : Captured} {s s' : Scalar} {e : Expr} (hc : Passes c s e)
    (hd : Passes d s' e) : c.field = d.field := by
  rcases hc.cases with rfl | rfl | rfl
  · rcases hd.cases with h | h | h
    · exact self_injective h
    · cases h
    · cases h
  · rcases hd.cases with h | h | h
    · cases h
    · exact self_injective (Expr.ref.inj h)
    · cases Expr.ref.inj h
  · rcases hd.cases with h | h | h
    · cases h
    · cases Expr.ref.inj h
    · exact self_injective (Expr.method.inj (Expr.ref.inj h)).1

/-- No plain name passes a field. -/
theorem Passes.dot_mem {c : Captured} {s : Scalar} {name : String}
    (h : Passes c s (.path name)) : '.' ∈ name.toList := by
  rcases h.cases with h | h | h
  · rw [Expr.path.inj h]
    simp
  · cases h
  · cases h

/-! ## The segment of a placeholder -/

theorem owners_eq (t : RouteTree) (op : Operation) (id : Nat) :
    owners t op id = (Template.spots op.path.toList (t.lineage id)).map fun (node,i) =>
      if i = 0 then some node else none := by
  simp only [owners, Template.spots, Template.segments_eq, List.zip_map_left, List.flatMap_map,
    List.map_flatMap, Template.placeholders_ofList, List.zipIdx_map, List.map_map, Prod.map]
  rfl

/-- The path of an operation ends at a node, at the start or below it. -/
structure EndsAt (ops : List Operation) (p : Plan) (op : Operation) (id : Nat) : Prop where
  tree : p.tree = .build ops
  keys : op.keys = p.tree.keysOf id
  start : p.tree.keysOf p.start <+: p.tree.keysOf id

variable {ops : List Operation} {p : Plan}

/-- The node of the segment that the `k`-th placeholder of a path opens in. -/
theorem exists_holder {op : Operation} {id : Nat} (h : EndsAt ops p op id)
    (hslash : ∀ name ∈ Template.placeholders op.path, '/' ∉ name.toList) {k : Nat} {name : String}
    (hk : (Template.placeholders op.path)[k]? = some name) :
    ∃ segment node i, (Template.segments op.path)[Template.holder op.path k]? = some segment ∧
      (Template.placeholders segment)[i]? = some name ∧
      (p.tree.lineage id)[Template.holder op.path k]? = some node ∧
      (Template.spots op.path.toList (p.tree.lineage id))[k]? = some (node,i) := by
  rw [Template.placeholders_eq, List.getElem?_map] at hk
  obtain ⟨n,hn,rfl⟩ := Option.map_eq_some_iff.mp hk
  have hlength : (p.tree.lineage id).length = (Template.pieces op.path.toList).length := by
    rw [h.tree, RouteTree.length_lineage, RouteTree.depth, ← h.tree, ← h.keys,
      Operation.length_keys, Template.segments_eq, List.length_map]
  obtain ⟨node,piece,i,hnode,hpiece,hname,hspot⟩ :=
    Template.exists_spot (Template.slashFree_of_placeholders hslash) hlength hn
  refine ⟨String.ofList piece,node,i,?_,?_,hnode,hspot⟩
  · rw [Template.segments_eq, List.getElem?_map, Template.holder, hpiece, Option.map_some]
  · rw [Template.placeholders_ofList, List.getElem?_map, hname, Option.map_some]

/-! ## What is passed for each placeholder -/

/-- The second node is below the first, and is not the first. -/
def IsBelow (t : RouteTree) (start node : Nat) : Prop :=
  t.keysOf start <+: t.keysOf node ∧ t.keysOf node ≠ t.keysOf start

/-- A parameter of a function, taken for nothing else than an argument of this type. -/
def Fresh (params : List Code.Param) (wanted : Scalar) (e : Expr) : Prop :=
  ∃ name, e = .path name ∧ '.' ∉ name.toList ∧ ⟨name,argumentType wanted⟩ ∈ params

/-- The segment captures a value at its node. -/
def Captures (p : Plan) (segment : String) (node : Nat) : Prop :=
  (Template.wholePlaceholder? segment).isSome = true ∧ IsBelow p.tree p.start node

/-- The value for a placeholder: the one captured at the node of its segment, which this struct
carries too, or a parameter if there is none or it does not fit. -/
inductive Chosen (p : Plan) (id : Nat) (params : List Code.Param) (segment : String)
    (node : Nat) (wanted : Scalar) (e : Expr) : Prop
  | captured (c : Captured) (hc : c ∈ p.captured id) (hnode : c.node = node)
    (hown : ownCapture? p node = some c) (hcap : Captures p segment node) (hfits : c.Fits wanted)
    (hpass : Passes c wanted e)
  | unfit (c : Captured) (hown : ownCapture? p node = some c) (hcap : Captures p segment node)
    (hfits : ¬ c.Fits wanted) (hfresh : Fresh params wanted e)
  | none (hcap : ¬ Captures p segment node) (hfresh : Fresh params wanted e)

/-- Each placeholder of a path gets the value of its own segment, or a parameter; no value and no
parameter is passed for two of them. -/
structure Wired (p : Plan) (id : Nat) (op : Operation) (f : Code.Function) : Prop where
  distinct : (f.params.map (·.name)).Nodup
  chosen (k : Nat) (param : PathParam) (hk : op.pathParams[k]? = some param) :
    ∃ segment node e, (Template.segments op.path)[Template.holder op.path k]? = some segment ∧
      param.name ∈ Template.placeholders segment ∧
      (p.tree.lineage id)[Template.holder op.path k]? = some node ∧
      f.passed[k + 1]? = some e ∧ Chosen p id f.params segment node param.type.scalar e
  own (k : Nat) (hk : k < op.pathParams.length) (e : Expr) (he : f.passed[k + 1]? = some e)
    (c : Captured) (hc : c ∈ p.captured id) (s : Scalar) (hpass : Passes c s e) :
    (p.tree.lineage id)[Template.holder op.path k]? = some c.node
  once (k l : Nat) (hk : k < op.pathParams.length) (hl : l < op.pathParams.length) (e e' : Expr)
    (he : f.passed[k + 1]? = some e) (he' : f.passed[l + 1]? = some e') (c : Captured)
    (hc : c ∈ p.captured id) (s s' : Scalar) (hpass : Passes c s e) (hpass' : Passes c s' e') :
    k = l
  apart (k l : Nat) (hk : k < op.pathParams.length) (hl : l < op.pathParams.length)
    (name : String) (he : f.passed[k + 1]? = some (.path name))
    (he' : f.passed[l + 1]? = some (.path name)) : k = l

/-! ## Arguments of a signature -/

variable {scope : ModelScope} {paths : ModulePaths} {op : Operation} {id k : Nat}

/-- The `k`-th path argument, and the parameter behind it if it has one. -/
def chosenArgument (p : Plan) (op : Operation) (id k : Nat) (a : PathArgument) :
    Expr × Option Code.Param :=
  pathArgument (p.captured id) a ((owners p.tree op id)[k]?.getD none)

theorem getElem?_arguments (p : Plan) (id : Nat) {a : PathArgument}
    (ha : (Signature.ofOperation scope paths op).path[k]? = some a) :
    (arguments p scope paths id op)[k]? = some (chosenArgument p op id k a) := by
  have hget : (pathArguments p op (Signature.ofOperation scope paths op) id)[k]? =
      some (chosenArgument p op id k a) := by
    rw [pathArguments, List.getElem?_map, List.getElem?_zipIdx, ha, Option.map_some,
      Option.map_some, Nat.zero_add, chosenArgument]
  have hlt := (List.getElem?_eq_some_iff.mp hget).1
  rw [arguments, List.append_assoc, List.getElem?_append_left hlt, hget]

theorem passed_operationMethod (p : Plan) (id : Nat) {a : PathArgument}
    (ha : (Signature.ofOperation scope paths op).path[k]? = some a) :
    (operationMethod p scope paths id op).passed[k + 1]? = some (chosenArgument p op id k a).1 := by
  rw [Code.Function.passed, body_operationMethod]
  simp only [List.getElem?_cons_succ, List.getElem?_map]
  rw [getElem?_arguments p id ha, Option.map_some]

/-! ## The choice -/

theorem find?_captured (ht : p.tree = .build ops) {c : Captured} (hc : c ∈ p.captured id) :
    (p.captured id).find? (·.node == c.node) = some c := by
  cases hf : (p.captured id).find? (·.node == c.node) with
  | none => exact absurd (List.find?_eq_none.mp hf c hc) (by simp)
  | some d =>
    have hd : d.node = c.node := by simpa using List.find?_some hf
    rw [List.inj_on_of_nodup_map (nodup_nodes ht id) (List.mem_of_find?_eq_some hf) hc hd]

section
variable {j node : Nat} {segment : String}

theorem isBelow_iff (h : EndsAt ops p op id) (hn : (p.tree.lineage id)[j]? = some node) :
    IsBelow p.tree p.start node ↔ p.tree.depth p.start ≤ j := by
  have hpre := h.start
  rw [h.tree] at hn hpre ⊢
  obtain ⟨hj,hnode,_⟩ := RouteTree.keysOf_of_mem_lineage hn
  rw [IsBelow, hnode, List.prefix_take_iff, RouteTree.depth]
  constructor
  · rintro ⟨⟨_,hle⟩,hne⟩
    refine Nat.le_of_lt_succ (Nat.lt_of_le_of_ne hle fun he => hne ?_)
    rw [List.prefix_iff_eq_take.mp hpre, he]
  · intro hle
    refine ⟨⟨hpre,Nat.le_succ_of_le hle⟩,fun he => ?_⟩
    have hlength := congrArg List.length he
    rw [RouteTree.depth] at hj
    rw [List.length_take, Nat.min_eq_left hj] at hlength
    omega

theorem isParam_iff (h : EndsAt ops p op id) (hs : (Template.segments op.path)[j]? = some segment)
    (hn : (p.tree.lineage id)[j]? = some node) :
    (p.tree.segmentOf node).isParam = true ↔
      (Template.wholePlaceholder? segment).isSome = true := by
  have hkeys := h.keys
  rw [h.tree] at hn hkeys ⊢
  have hj : j < op.keys.length := by
    rw [Operation.length_keys]
    exact (List.getElem?_eq_some_iff.mp hs).1
  rw [RouteTree.isParam_segmentOf, (RouteTree.keysOf_of_mem_lineage hn).2.1, ← hkeys,
    RouteTree.getLast?_take_succ hj, List.getElem?_eq_getElem hj, Option.some.injEq]
  exact Operation.key_eq_paramKey hs (List.getElem?_eq_getElem hj)

/-- A node that captures a value is a whole placeholder below the start. -/
theorem captures_of_mem_captured (h : EndsAt ops p op id)
    (hs : (Template.segments op.path)[j]? = some segment)
    (hn : (p.tree.lineage id)[j]? = some node) {c : Captured} (hc : c ∈ p.captured id)
    (hnode : c.node = node) : Captures p segment node := by
  have hmem : node ∈ (p.captured id).map (·.node) := hnode ▸ List.mem_map_of_mem hc
  rw [map_node_captured] at hmem
  obtain ⟨hbelow,hparam⟩ := List.mem_filter.mp hmem
  refine ⟨(isParam_iff h hs hn).mp hparam,(isBelow_iff h hn).mpr ?_⟩
  obtain ⟨i,hi⟩ := List.mem_iff_getElem?.mp hbelow
  rw [below, List.getElem?_drop] at hi
  have hnodup : (p.tree.lineage id).Nodup := h.tree ▸ RouteTree.nodup_lineage id
  have hj := (List.getElem?_inj (List.getElem?_eq_some_iff.mp hn).1 hnodup).mp (hn.trans hi.symm)
  omega

end

/-- Nothing is captured, or what is captured does not fit. -/
def Declines (p : Plan) (segment : String) (node : Nat) (wanted : Scalar) : Prop :=
  Captures p segment node → ∃ c, ownCapture? p node = some c ∧ ¬ c.Fits wanted

theorem Declines.chosen {params : List Code.Param} {segment : String} {node : Nat}
    {wanted : Scalar} {e : Expr} (h : Declines p segment node wanted)
    (hfresh : Fresh params wanted e) :
    Chosen p id params segment node wanted e := by
  by_cases hcap : Captures p segment node
  · obtain ⟨c,hown,hfits⟩ := h hcap
    exact .unfit c hown hcap hfits hfresh
  · exact .none hcap hfresh

/-- The choice for one placeholder, and where a captured value comes from. -/
theorem chosenArgument_cases (h : EndsAt ops p op id)
    (hslash : ∀ name ∈ Template.placeholders op.path, '/' ∉ name.toList) (a : PathArgument)
    {name : String} (hk : (Template.placeholders op.path)[k]? = some name) :
    ∃ segment node, (Template.segments op.path)[Template.holder op.path k]? = some segment ∧
      name ∈ Template.placeholders segment ∧
      (p.tree.lineage id)[Template.holder op.path k]? = some node ∧
      ((∃ c ∈ p.captured id, c.node = node ∧ ownCapture? p node = some c ∧
          Captures p segment node ∧ c.Fits a.scalar ∧
          (∃ e, chosenArgument p op id k a = (e,none) ∧ Passes c a.scalar e) ∧
          (Template.spots op.path.toList (p.tree.lineage id))[k]? = some (node,0)) ∨
        Declines p segment node a.scalar ∧
          chosenArgument p op id k a = (.path a.name,some a.param)) := by
  obtain ⟨segment,node,i,hs,hname,hn,hspot⟩ := exists_holder h hslash hk
  refine ⟨segment,node,hs,List.mem_of_getElem? hname,hn,?_⟩
  have howner : (owners p.tree op id)[k]?.getD none = if i = 0 then some node else none := by
    rw [owners_eq, List.getElem?_map, hspot, Option.map_some, Option.getD_some]
  by_cases hcap : Captures p segment node
  · obtain ⟨hwhole,hbelow⟩ := hcap
    obtain ⟨c,hc,hown,rfl⟩ := exists_ownCapture h.tree hn ((isBelow_iff h hn).mp hbelow)
      ((isParam_iff h hs hn).mpr hwhole)
    -- a whole placeholder is the first of its segment
    have hzero : i = 0 := by
      obtain ⟨whole,hwhole⟩ := Option.isSome_iff_exists.mp hwhole
      rw [Template.placeholders_eq, Template.names_of_whole hwhole] at hname
      have hlt := (List.getElem?_eq_some_iff.mp hname).1
      simpa using hlt
    rw [hzero, if_pos rfl] at howner
    have hfind := find?_captured h.tree hc
    rw [chosenArgument, howner]
    by_cases hfits : c.Fits a.scalar
    · obtain ⟨e,he,hpass⟩ := capturedArgument?_fits hfits
      have hargument := pathArgument_captured hfind he
      exact .inl ⟨c,hc,rfl,hown,⟨hwhole,hbelow⟩,hfits,⟨e,hargument,hpass⟩,hzero ▸ hspot⟩
    · refine .inr ⟨fun _ => ⟨c,hown,hfits⟩,pathArgument_param ?_⟩
      rw [Option.bind_some, hfind, Option.bind_some, capturedArgument?_not_fits hfits]
  · refine .inr ⟨fun h => absurd h hcap,?_⟩
    have hnone : (p.captured id).find? (·.node == node) = none := by
      refine List.find?_eq_none.mpr fun c hc hnode => ?_
      exact hcap (captures_of_mem_captured h hs hn hc (by simpa using hnode))
    rw [chosenArgument, howner]
    refine pathArgument_param ?_
    split
    · rw [Option.bind_some, hnone, Option.bind_none]
    · rfl

/-! ## Methods -/

section
variable (scope paths) (h : EndsAt ops p op id) (hx : op.Extracted)
  (hslash : ∀ name ∈ Template.placeholders op.path, '/' ∉ name.toList)
include h hx hslash

theorem chosen_operationMethod {param : PathParam} (hk : op.pathParams[k]? = some param) :
    ∃ segment node e, (Template.segments op.path)[Template.holder op.path k]? = some segment ∧
      param.name ∈ Template.placeholders segment ∧
      (p.tree.lineage id)[Template.holder op.path k]? = some node ∧
      (operationMethod p scope paths id op).passed[k + 1]? = some e ∧
      ((∃ c ∈ p.captured id, c.node = node ∧ ownCapture? p node = some c ∧
          Captures p segment node ∧ c.Fits param.type.scalar ∧ Passes c param.type.scalar e ∧
          (Template.spots op.path.toList (p.tree.lineage id))[k]? = some (node,0)) ∨
        Declines p segment node param.type.scalar ∧
          ∃ name, (Signature.argumentNames op)[k]? = some name ∧ e = .path name ∧
            ⟨name,argumentType param.type.scalar⟩ ∈
              (operationMethod p scope paths id op).params) := by
  have hname : (Template.placeholders op.path)[k]? = some param.name := by
    rw [← hx.map_name_pathParams, List.getElem?_map, hk, Option.map_some]
  obtain ⟨name,hargument,hpath⟩ := Signature.getElem?_path scope paths hk
  have hpassed := passed_operationMethod p id hpath
  have harguments := List.mem_of_getElem? (getElem?_arguments p id hpath)
  obtain ⟨segment,node,hs,hmem,hn,hcases⟩ :=
    chosenArgument_cases h hslash ⟨name,param.type.scalar⟩ hname
  refine ⟨segment,node,_,hs,hmem,hn,hpassed,?_⟩
  rcases hcases with ⟨c,hc,hnode,hown,hcap,hfits,⟨e,he,hpass⟩,hspot⟩ | ⟨hnot,he⟩
  · rw [he]
    exact .inl ⟨c,hc,hnode,hown,hcap,hfits,hpass,hspot⟩
  · rw [he] at harguments ⊢
    exact .inr ⟨hnot,name,hargument,rfl,mem_params harguments rfl⟩

/-- A captured value comes from the first placeholder of the segment that the argument is for. -/
theorem spot_of_passes (hk : k < op.pathParams.length) {e : Expr}
    (he : (operationMethod p scope paths id op).passed[k + 1]? = some e) {c : Captured}
    (hc : c ∈ p.captured id) {s : Scalar} (hpass : Passes c s e) :
    (p.tree.lineage id)[Template.holder op.path k]? = some c.node ∧
      (Template.spots op.path.toList (p.tree.lineage id))[k]? = some (c.node,0) := by
  obtain ⟨segment,node,e',_,_,hn,he',hcases⟩ :=
    chosen_operationMethod scope paths h hx hslash (List.getElem?_eq_getElem hk)
  cases he.symm.trans he'
  rcases hcases with ⟨d,hd,rfl,_,_,_,hpass',hspot⟩ | ⟨_,name,hargument,rfl,_⟩
  · have hnodup := (List.nodup_cons.mp (nodup_fields p id)).2
    cases List.inj_on_of_nodup_map hnodup hc hd (hpass.field_eq hpass')
    exact ⟨hn,hspot⟩
  · exact absurd hpass.dot_mem
      (Signature.dot_not_mem_argumentNames (List.mem_of_getElem? hargument))

theorem eq_of_passes {l : Nat} (hk : k < op.pathParams.length) (hl : l < op.pathParams.length)
    {e e' : Expr} (he : (operationMethod p scope paths id op).passed[k + 1]? = some e)
    (he' : (operationMethod p scope paths id op).passed[l + 1]? = some e') {c : Captured}
    (hc : c ∈ p.captured id) {s s' : Scalar} (hpass : Passes c s e) (hpass' : Passes c s' e') :
    k = l := by
  have hspot := (spot_of_passes scope paths h hx hslash hk he hc hpass).2
  have hspot' := (spot_of_passes scope paths h hx hslash hl he' hc hpass').2
  have hnodup : (p.tree.lineage id).Nodup := h.tree ▸ RouteTree.nodup_lineage id
  exact (List.getElem?_inj (List.getElem?_eq_some_iff.mp hspot).1
    (Template.nodup_spots _ hnodup)).mp (hspot.trans hspot'.symm)

/-- A plain name among the path's arguments is a captured value or the argument's own name. -/
theorem argument_of_path (hk : k < op.pathParams.length) {name : String}
    (he : (operationMethod p scope paths id op).passed[k + 1]? = some (.path name)) :
    (∃ c ∈ p.captured id, ∃ s, Passes c s (.path name)) ∨
      (Signature.argumentNames op)[k]? = some name := by
  obtain ⟨_,_,_,_,_,_,he',hcases⟩ :=
    chosen_operationMethod scope paths h hx hslash (List.getElem?_eq_getElem hk)
  cases he.symm.trans he'
  rcases hcases with ⟨c,hc,_,_,_,_,hpass,_⟩ | ⟨_,name',hargument,hpath,_⟩
  · exact .inl ⟨c,hc,_,hpass⟩
  · cases hpath
    exact .inr hargument

theorem wired_operationMethod : Wired p id op (operationMethod p scope paths id op) where
  distinct := nodup_params p scope paths id op
  chosen k param hk := by
    obtain ⟨segment,node,e,hs,hmem,hn,he,hcases⟩ :=
      chosen_operationMethod scope paths h hx hslash hk
    refine ⟨segment,node,e,hs,hmem,hn,he,?_⟩
    rcases hcases with ⟨c,hc,hnode,hown,hcap,hfits,hpass,_⟩ | ⟨hnot,name,hargument,hpath,hparam⟩
    · exact .captured c hc hnode hown hcap hfits hpass
    · exact hnot.chosen ⟨name,hpath,
        Signature.dot_not_mem_argumentNames (List.mem_of_getElem? hargument),hparam⟩
  own k hk e he c hc s hpass := (spot_of_passes scope paths h hx hslash hk he hc hpass).1
  once k l hk hl e e' he he' c hc s s' hpass hpass' :=
    eq_of_passes scope paths h hx hslash hk hl he he' hc hpass hpass'
  apart k l hk hl name he he' := by
    rcases argument_of_path scope paths h hx hslash hk he with ⟨c,hc,s,hpass⟩ | hargument
    · rcases argument_of_path scope paths h hx hslash hl he' with ⟨d,hd,s',hpass'⟩ | hargument'
      · have hnodup := (List.nodup_cons.mp (nodup_fields p id)).2
        cases List.inj_on_of_nodup_map hnodup hc hd (hpass.field_eq hpass')
        exact eq_of_passes scope paths h hx hslash hk hl he he' hc hpass hpass'
      · exact absurd hpass.dot_mem
          (Signature.dot_not_mem_argumentNames (List.mem_of_getElem? hargument'))
    · rcases argument_of_path scope paths h hx hslash hl he' with ⟨d,hd,s',hpass'⟩ | hargument'
      · exact absurd hpass'.dot_mem
          (Signature.dot_not_mem_argumentNames (List.mem_of_getElem? hargument))
      · exact (List.getElem?_inj (List.getElem?_eq_some_iff.mp hargument).1
          (Signature.nodup_argumentNames op)).mp (hargument.trans hargument'.symm)

end

/-! ## All methods of a plan -/

theorem startNode_lt (ops : List Operation) (rootSegment : String) :
    startNode (.build ops) rootSegment < (RouteTree.build ops).nodes.length := by
  have hroot : RouteTree.root < (RouteTree.build ops).nodes.length := by
    have hmem : [] ∈ (RouteTree.build ops).nodes.map (·.keys) :=
      RouteTree.mem_keys_build.mpr (.inl rfl)
    have hpos := List.length_pos_of_mem hmem
    rwa [List.length_map] at hpos
  unfold startNode
  split
  · exact hroot
  · cases hf : (RouteTree.build ops).find? [rootSegment] with
    | none => exact hroot
    | some n => exact (RouteTree.find?_eq_some hf).1

theorem endsAt_of_mem_order {rootSegment : String} {id i : Nat} {op : Operation}
    (hid : id ∈ (Plan.of (.build ops) rootSegment).order)
    (hi : i ∈ (RouteTree.build ops).operationsAt id) (hop : ops[i]? = some op) :
    EndsAt ops (.of (.build ops) rootSegment) op id where
  tree := rfl
  keys := (RouteTree.keys_of_mem_operationsAt hi hop).2
  start := (RouteTree.prefix_of_mem_walk (startNode_lt ops rootSegment) hid).2

/-- Wherever navigation starts, the method of an operation at a node from there on passes to each
placeholder the value of its own segment, or takes a parameter for it. -/
theorem exists_wired_method (hx : ∀ op ∈ ops, op.Extracted) (rootSegment : String)
    (scope : ModelScope) (paths : ModulePaths) {id i : Nat} {op : Operation}
    (hid : id ∈ (Plan.of (.build ops) rootSegment).order)
    (hi : i ∈ (RouteTree.build ops).operationsAt id) (hop : ops[i]? = some op)
    (hslash : ∀ name ∈ Template.placeholders op.path, '/' ∉ name.toList) :
    ∃ f : Code.Function, .function f ∈
        (nodeImpl (.of (.build ops) rootSegment) scope paths ops id).members ∧
      (∃ name, f =
        { operationMethod (.of (.build ops) rootSegment) scope paths id op with name }) ∧
      Wired (.of (.build ops) rootSegment) id op f := by
  obtain ⟨name,hmem⟩ := exists_operation_member (p := .of (.build ops) rootSegment) hi hop
  have hw := wired_operationMethod scope paths (endsAt_of_mem_order hid hi hop)
    (hx op (List.mem_of_getElem? hop)) hslash
  exact ⟨_,hmem,⟨name,rfl⟩,⟨hw.distinct,hw.chosen,hw.own,hw.once,hw.apart⟩⟩

def numbered (name : String) : Parameter where
  name
  location := "path"
  required := true
  description := none
  schema := some
    { type := some (.one "integer"), ref := none, title := none, description := none
      format := some "int32", properties := .empty, required := [], items := none
      enumValues := none, oneOf := none, additional := none, const := none, nullable := none }

def reading (parameters : List Parameter) : PathItem where
  get := some ⟨none,none,none,["gallery"],none,parameters.map .here,none,.empty⟩
  post := none
  put := none
  patch := none
  delete := none
  parameters := []

/-- A name that repeats, a placeholder within a segment, and a node that is named and typed by
another operation. -/
def gallery : Extract.Source where
  document := ⟨.ofList [("/v4/halls/{hall}/rooms/{room}.json/{hall}",reading [numbered "hall"]),
    ("/v4/halls/{id}/rooms",reading [])],none⟩
  naming := .default
  preservedNames := []

theorem exists_wired_method_gallery :
    let ops := (Extract.api gallery).value.operations
    let p := Plan.of (.build ops) "v4"
    (∀ op ∈ ops, op.Extracted) ∧ 6 ∈ p.order ∧ 0 ∈ (RouteTree.build ops).operationsAt 6 ∧
      ∃ op, ops[0]? = some op ∧ (∀ name ∈ Template.placeholders op.path, '/' ∉ name.toList) ∧
        ∃ f : Code.Function,
          .function f ∈ (nodeImpl p ⟨[],none⟩ .default ops 6).members ∧
          (∃ name, f = { operationMethod p ⟨[],none⟩ .default 6 op with name }) ∧
          Wired p 6 op f := by
  intro ops p
  have hx := Extract.extracted_of_mem_api gallery
  have hid : 6 ∈ p.order := by decide +kernel
  have hi : 0 ∈ (RouteTree.build ops).operationsAt 6 := by decide +kernel
  have hlength : 0 < ops.length := by decide +kernel
  have hop : ops[0]? = some ops[0] := List.getElem?_eq_getElem hlength
  have hslash : ∀ op ∈ ops, ∀ name ∈ Template.placeholders op.path, '/' ∉ name.toList := by
    decide +kernel
  have hslash := hslash ops[0] (List.getElem_mem hlength)
  exact ⟨hx,hid,hi,ops[0],hop,hslash,
    exists_wired_method hx "v4" ⟨[],none⟩ .default hid hi hop hslash⟩

end Sdk.Navigation
end ClientGen
