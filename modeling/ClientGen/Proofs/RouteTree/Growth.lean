import ClientGen.Proofs.RouteTree.Lineage

/-! # Growth of a route tree

Nodes are only ever added at the end, a parent before its children, and a node keeps the segment of
the first operation that passes it.
-/
namespace ClientGen

/-! ## Keys and types of a path's pieces -/

/-- A piece that is one placeholder has the key of parameters, any other its own text. -/
def pieceKey (raw : String) : String :=
  if (Template.wholePlaceholder? raw).isSome then Segment.paramKey else raw

def pathKeys (path : String) : List String :=
  (Template.segments path).map pieceKey

/-- The type for a placeholder that is the whole of piece `j`: that of the parameter whose position
is the number of placeholders in the pieces before, and text if there is none. -/
def Operation.typeAt (op : Operation) (j : Nat) : TypeRef :=
  let earlier := ((Template.segments op.path).take j).flatMap Template.placeholders
  (op.pathParams[earlier.length]?.map (·.type)).getD .text

theorem getElem?_segmentsOf (params : List PathParam) (raws : List String) (j : Nat) :
    (segmentsOf params raws)[j]? = raws[j]?.map fun raw =>
      match Template.wholePlaceholder? raw with
      | some name => .param name
        ((params[((raws.take j).flatMap Template.placeholders).length]?.map (·.type)).getD .text)
      | none => .literal raw := by
  induction raws generalizing params j with
  | nil => simp [segmentsOf]
  | cons raw rest ih =>
    cases j with
    | zero =>
      rw [segmentsOf, List.head?_eq_getElem?]
      rfl
    | succ j =>
      rw [segmentsOf, List.getElem?_cons_succ, ih, List.getElem?_cons_succ, List.take_succ_cons,
        List.flatMap_cons, List.length_append, List.getElem?_drop]

namespace Operation
variable {op : Operation} {j : Nat}

theorem getElem?_segments (op : Operation) (j : Nat) :
    op.segments[j]? = (Template.segments op.path)[j]?.map fun raw =>
      match Template.wholePlaceholder? raw with
      | some name => .param name (op.typeAt j)
      | none => .literal raw :=
  getElem?_segmentsOf op.pathParams _ j

theorem keys_eq (op : Operation) : op.keys = pathKeys op.path := by
  refine List.ext_getElem? fun j => ?_
  rw [keys, List.getElem?_map, getElem?_segments, pathKeys, List.getElem?_map, Option.map_map]
  refine congrArg (Option.map · _) (funext fun raw => ?_)
  rw [Function.comp_apply, pieceKey]
  cases Template.wholePlaceholder? raw <;> rfl

end Operation

namespace RouteTree

/-! ## What growing keeps -/

theorem prefix_foldl_grow (bs : List (List String × Segment)) (nodes : List RouteNode) :
    nodes <+: bs.foldl grow nodes := by
  induction bs generalizing nodes with
  | nil => exact List.prefix_refl _
  | cons b bs ih =>
    have hstep : nodes <+: grow nodes b := by
      rcases grow_cases nodes b with ⟨_,he⟩ | ⟨_,he⟩
      · exact he.symm ▸ List.prefix_refl _
      · exact he.symm ▸ List.prefix_append _ _
    exact hstep.trans (ih _)

/-- Every node below the top comes after the node that its keys without the last lead to. -/
def Parented (nodes : List RouteNode) : Prop :=
  ∀ (i : Nat) (n : RouteNode), nodes[i]? = some n → n.keys ≠ [] →
    ∃ (p : Nat) (m : RouteNode), p < i ∧ nodes[p]? = some m ∧ m.keys = n.keys.dropLast

theorem Parented.grow {nodes : List RouteNode} (h : Parented nodes) {b : List String × Segment}
    (hb : b.1.dropLast ∈ nodes.map (·.keys)) : Parented (grow nodes b) := by
  rcases grow_cases nodes b with ⟨_,he⟩ | ⟨_,he⟩
  · rw [he]
    exact h
  · rw [he]
    intro i n hn hkeys
    have hlift : ∀ {p : Nat} {m : RouteNode}, nodes[p]? = some m →
        (nodes ++ [⟨b.1,b.2,[]⟩])[p]? = some m := by
      intro p m hm
      rw [List.getElem?_append_left (List.getElem?_eq_some_iff.mp hm).1]
      exact hm
    by_cases hi : i < nodes.length
    · rw [List.getElem?_append_left hi] at hn
      obtain ⟨p,m,hp,hm,hmk⟩ := h i n hn hkeys
      exact ⟨p,m,hp,hlift hm,hmk⟩
    · rw [List.getElem?_append_right (Nat.le_of_not_lt hi)] at hn
      have hn := List.mem_singleton.mp (List.mem_of_getElem? hn)
      obtain ⟨m,hm,hmk⟩ := List.mem_map.mp hb
      obtain ⟨p,hp,rfl⟩ := List.mem_iff_getElem.mp hm
      refine ⟨p,nodes[p],by omega,hlift (List.getElem?_eq_getElem hp),?_⟩
      rw [hmk, hn]

/-- The way of one operation is entered from the top down. -/
theorem Parented.foldl_branches {segments : List Segment} {above : List String}
    {nodes : List RouteNode} (h : Parented nodes) (habove : above ∈ nodes.map (·.keys)) :
    Parented ((branches above segments).foldl RouteTree.grow nodes) := by
  induction segments generalizing above nodes with
  | nil => exact h
  | cons s rest ih =>
    have hfirst : (above ++ [s.key]).dropLast ∈ nodes.map (·.keys) := by
      rwa [List.dropLast_concat]
    rw [branches, List.foldl_cons]
    refine ih (h.grow hfirst) ?_
    have hin : above ++ [s.key] ∈
        ([(above ++ [s.key],s)].foldl RouteTree.grow nodes).map (·.keys) :=
      mem_keys_foldl_grow.mpr (.inr (by simp))
    exact hin

theorem Parented.foldl_operations {ops : List Operation} {nodes : List RouteNode}
    (h : Parented nodes) (htop : [] ∈ nodes.map (·.keys)) :
    Parented ((ops.flatMap fun op => branches [] op.segments).foldl RouteTree.grow nodes) := by
  induction ops generalizing nodes with
  | nil => exact h
  | cons op rest ih =>
    rw [List.flatMap_cons, List.foldl_append]
    exact ih (h.foldl_branches htop) (mem_keys_foldl_grow.mpr (.inl htop))

/-- A node has the segment of the first branch with its keys. -/
theorem find?_of_mem_foldl_grow {bs : List (List String × Segment)} {nodes : List RouteNode}
    (hnodup : (nodes.map (·.keys)).Nodup) {n : RouteNode} (h : n ∈ bs.foldl grow nodes)
    (hnew : n.keys ∉ nodes.map (·.keys)) :
    bs.find? (fun b => b.1 == n.keys) = some (n.keys,n.segment) := by
  induction bs generalizing nodes with
  | nil => exact absurd (List.mem_map_of_mem h) hnew
  | cons b bs ih =>
    rw [List.foldl_cons] at h
    have hstep : ((grow nodes b).map (·.keys)).Nodup := nodup_foldl_grow [b] hnodup
    by_cases hk : b.1 = n.keys
    · rw [List.find?_cons, beq_iff_eq.mpr hk]
      rcases grow_cases nodes b with ⟨hb,_⟩ | ⟨_,he⟩
      · exact absurd (hk ▸ hb) hnew
      · -- the node made of this branch is the only one with its keys
        have hmade : ⟨b.1,b.2,[]⟩ ∈ bs.foldl grow (grow nodes b) := by
          refine (prefix_foldl_grow bs _).subset ?_
          rw [he]
          exact List.mem_append_right _ List.mem_cons_self
        have hn := List.inj_on_of_nodup_map (nodup_foldl_grow bs hstep) h hmade hk.symm
        rw [hn]
    · rw [List.find?_cons, beq_eq_false_iff_ne.mpr hk]
      refine ih hstep h ?_
      rcases grow_cases nodes b with ⟨_,he⟩ | ⟨_,he⟩
      · rw [he]
        exact hnew
      · rw [he, List.map_append, List.mem_append, not_or]
        exact ⟨hnew,by simpa using Ne.symm hk⟩

end RouteTree
end ClientGen
