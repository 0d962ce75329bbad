import ClientGen.Proofs.Template.Cuts
import ClientGen.RouteTree
import Mathlib.Data.List.Nodup

/-! # Nodes of a route tree

The keys of the nodes are the beginnings of the keys of operations, each once. A node is a parameter
exactly when the segment that leads to it is one placeholder, whichever operation made the node.
-/
namespace ClientGen

/-! ## Segments of an operation -/

/-- The segment is made of this piece of a path. -/
def Segment.StandsFor : Segment → String → Prop
  | .root, _ => False
  | .literal text, raw => text = raw ∧ Template.wholePlaceholder? raw = none
  | .param name _, raw => Template.wholePlaceholder? raw = some name

def Segment.isParam : Segment → Bool
  | .param _ _ => true
  | _ => false

theorem Segment.StandsFor.isParam_eq {s : Segment} {raw : String} (h : s.StandsFor raw) :
    s.isParam = (Template.wholePlaceholder? raw).isSome := by
  cases s with
  | root => exact h.elim
  | literal text => rw [h.2]; rfl
  | param name type => rw [show Template.wholePlaceholder? raw = some name from h]; rfl

/-- No literal has the key of parameters, as the braces alone are a placeholder. -/
theorem Segment.StandsFor.key_eq_paramKey {s : Segment} {raw : String} (h : s.StandsFor raw) :
    s.key = paramKey ↔ s.isParam = true := by
  cases s with
  | root => exact h.elim
  | literal text =>
    obtain ⟨rfl,hw⟩ := h
    simp only [key, isParam, Bool.false_eq_true, iff_false]
    rintro rfl
    exact absurd hw (by decide)
  | param name type => exact ⟨fun _ => rfl,fun _ => rfl⟩

/-- A segment is written as in the path. -/
theorem Segment.StandsFor.written_eq {s : Segment} {raw : String} (h : s.StandsFor raw) :
    s.written = raw := by
  cases s with
  | root => exact h.elim
  | literal text => exact h.1
  | param name type =>
    apply String.toList_inj.mp
    rw [(Template.whole_eq h).1, written, String.toList_append, String.toList_append]
    rfl

theorem length_segmentsOf (params : List PathParam) (raws : List String) :
    (segmentsOf params raws).length = raws.length := by
  induction raws generalizing params with
  | nil => rfl
  | cons raw rest ih => simp [segmentsOf, ih]

theorem standsFor_segmentsOf {params : List PathParam} {raws : List String} {j : Nat}
    {s : Segment} {raw : String} (hs : (segmentsOf params raws)[j]? = some s)
    (hr : raws[j]? = some raw) : s.StandsFor raw := by
  induction raws generalizing params j with
  | nil => simp at hr
  | cons r rest ih =>
    cases j with
    | zero =>
      simp only [segmentsOf, List.getElem?_cons_zero, Option.some.injEq] at hs hr
      subst hs hr
      split
      · assumption
      · exact ⟨rfl,by assumption⟩
    | succ j =>
      simp only [segmentsOf, List.getElem?_cons_succ] at hs hr
      exact ih hs hr

namespace Operation
variable {op : Operation} {j : Nat}

theorem length_keys (op : Operation) : op.keys.length = (Template.segments op.path).length := by
  rw [keys, List.length_map, segments, length_segmentsOf]

theorem length_segments (op : Operation) :
    op.segments.length = (Template.segments op.path).length := by
  rw [segments, length_segmentsOf]

/-- A segment of the path that is one placeholder has the key of parameters, and no other has. -/
theorem key_eq_paramKey {raw key : String} (hr : (Template.segments op.path)[j]? = some raw)
    (hk : op.keys[j]? = some key) :
    key = Segment.paramKey ↔ (Template.wholePlaceholder? raw).isSome = true := by
  rw [keys, List.getElem?_map] at hk
  obtain ⟨s,hs,rfl⟩ := Option.map_eq_some_iff.mp hk
  have hstands := standsFor_segmentsOf hs hr
  rw [hstands.key_eq_paramKey, hstands.isParam_eq]

end Operation

theorem mem_branches {above : List String} {segments : List Segment} {b : List String × Segment} :
    b ∈ branches above segments ↔
      ∃ j, segments[j]? = some b.2 ∧ b.1 = above ++ (segments.take (j + 1)).map Segment.key := by
  induction segments generalizing above with
  | nil => simp [branches]
  | cons s rest ih =>
    rw [branches, List.mem_cons, ih]
    constructor
    · rintro (rfl | ⟨j,hj,hb⟩)
      · exact ⟨0,rfl,by simp⟩
      · exact ⟨j + 1,hj,by simp [hb]⟩
    · rintro ⟨j,hj,hb⟩
      cases j with
      | zero => exact .inl (Prod.ext (by simpa using hb) (Option.some.inj hj).symm)
      | succ j => exact .inr ⟨j,hj,by simp [hb]⟩

/-- The branches of an operation are the beginnings of its keys. -/
theorem mem_map_fst_branches {segments : List Segment} {ks : List String} :
    ks ∈ (branches [] segments).map Prod.fst ↔ ks ≠ [] ∧ ks <+: segments.map Segment.key := by
  rw [List.mem_map]
  constructor
  · rintro ⟨b,hb,rfl⟩
    obtain ⟨j,hj,hk⟩ := mem_branches.mp hb
    have hlt := (List.getElem?_eq_some_iff.mp hj).1
    rw [List.nil_append, List.map_take] at hk
    refine ⟨fun hnil => ?_,hk ▸ List.take_prefix _ _⟩
    have hlength := congrArg List.length (hk.symm.trans hnil)
    rw [List.length_take, List.length_map, List.length_nil] at hlength
    omega
  · rintro ⟨hne,hpre⟩
    have hle := hpre.length_le
    have hpos := List.length_pos_of_ne_nil hne
    have hlt : ks.length - 1 < segments.length := by
      rw [List.length_map] at hle
      omega
    refine ⟨(ks,segments[ks.length - 1]),mem_branches.mpr
      ⟨ks.length - 1,List.getElem?_eq_getElem hlt,?_⟩,rfl⟩
    rw [List.nil_append, List.map_take, Nat.sub_add_cancel hpos]
    exact List.prefix_iff_eq_take.mp hpre

namespace RouteTree

/-! ## Growing -/

theorem grow_cases (nodes : List RouteNode) (b : List String × Segment) :
    (b.1 ∈ nodes.map (·.keys) ∧ grow nodes b = nodes) ∨
      (b.1 ∉ nodes.map (·.keys) ∧ grow nodes b = nodes ++ [⟨b.1,b.2,[]⟩]) := by
  unfold grow
  split
  · rename_i h
    exact .inl ⟨by simpa using h,rfl⟩
  · rename_i h
    exact .inr ⟨by simpa using h,rfl⟩

theorem mem_keys_foldl_grow {bs : List (List String × Segment)} {nodes : List RouteNode}
    {ks : List String} : ks ∈ (bs.foldl grow nodes).map (·.keys) ↔
      ks ∈ nodes.map (·.keys) ∨ ks ∈ bs.map Prod.fst := by
  induction bs generalizing nodes with
  | nil => simp
  | cons b bs ih =>
    rw [List.foldl_cons, ih, List.map_cons, List.mem_cons]
    rcases grow_cases nodes b with ⟨hb,he⟩ | ⟨_,he⟩
    · rw [he]
      constructor
      · exact fun h => h.imp_right .inr
      · rintro (h | rfl | h)
        · exact .inl h
        · exact .inl hb
        · exact .inr h
    · rw [he, List.map_append, List.mem_append, List.map_singleton, List.mem_singleton, or_assoc]

theorem nodup_foldl_grow (bs : List (List String × Segment)) {nodes : List RouteNode}
    (h : (nodes.map (·.keys)).Nodup) : ((bs.foldl grow nodes).map (·.keys)).Nodup := by
  induction bs generalizing nodes with
  | nil => exact h
  | cons b bs ih =>
    refine ih ?_
    rcases grow_cases nodes b with ⟨_,he⟩ | ⟨hb,he⟩
    · rw [he]
      exact h
    · rw [he, List.map_append, List.nodup_append]
      refine ⟨h,List.nodup_singleton _,fun a ha c hc => ?_⟩
      rintro rfl
      rw [List.map_singleton, List.mem_singleton] at hc
      rw [hc] at ha
      exact hb ha

theorem mem_foldl_grow {bs : List (List String × Segment)} {nodes : List RouteNode}
    {n : RouteNode} (h : n ∈ bs.foldl grow nodes) : n ∈ nodes ∨ (n.keys,n.segment) ∈ bs := by
  induction bs generalizing nodes with
  | nil => exact .inl h
  | cons b bs ih =>
    rcases ih h with hn | hn
    · rcases grow_cases nodes b with ⟨_,he⟩ | ⟨_,he⟩
      · rw [he] at hn
        exact .inl hn
      · rw [he, List.mem_append, List.mem_singleton] at hn
        rcases hn with hn | rfl
        · exact .inl hn
        · exact .inr List.mem_cons_self
    · exact .inr (List.mem_cons_of_mem _ hn)

/-! ## The tree of some operations -/

variable {ops : List Operation}

/-- Nodes before their operations are listed. -/
def grown (ops : List Operation) : List RouteNode :=
  (ops.flatMap fun op => branches [] op.segments).foldl grow [⟨[],.root,[]⟩]

theorem getElem?_build (ops : List Operation) (id : Nat) : (build ops).nodes[id]? =
    (grown ops)[id]?.map fun n => { n with operations := endingAt ops n.keys } := by
  rw [build, List.getElem?_map, grown]

theorem length_build (ops : List Operation) :
    (build ops).nodes.length = (grown ops).length := by
  rw [build, List.length_map, grown]

theorem map_keys_build (ops : List Operation) :
    (build ops).nodes.map (·.keys) = (grown ops).map (·.keys) := by
  simp [build, grown, Function.comp_def]

theorem nodup_keys_build (ops : List Operation) : ((build ops).nodes.map (·.keys)).Nodup := by
  rw [map_keys_build]
  exact nodup_foldl_grow _ (by simp)

/-- The keys of nodes are the beginnings of the keys of operations. -/
theorem mem_keys_build {ks : List String} :
    ks ∈ (build ops).nodes.map (·.keys) ↔ ks = [] ∨ ∃ op ∈ ops, ks <+: op.keys := by
  rw [map_keys_build, grown, mem_keys_foldl_grow, List.map_singleton, List.mem_singleton,
    List.map_flatMap, List.mem_flatMap]
  constructor
  · rintro (h | ⟨op,hop,h⟩)
    · exact .inl h
    · exact .inr ⟨op,hop,(mem_map_fst_branches.mp h).2⟩
  · rintro (h | ⟨op,hop,h⟩)
    · exact .inl h
    · by_cases hne : ks = []
      · exact .inl hne
      · exact .inr ⟨op,hop,mem_map_fst_branches.mpr ⟨hne,h⟩⟩

/-- A node other than the root stands for the segment that leads to it. -/
theorem exists_segment_of_mem_build {n : RouteNode} (h : n ∈ (build ops).nodes) :
    (n.keys = [] ∧ n.segment = .root) ∨ ∃ op ∈ ops, ∃ j,
      op.segments[j]? = some n.segment ∧ n.keys = op.keys.take (j + 1) := by
  obtain ⟨m,hm,rfl⟩ := List.mem_map.mp h
  rcases mem_foldl_grow hm with hm | hm
  · rw [List.mem_singleton.mp hm]
    exact .inl ⟨rfl,rfl⟩
  · obtain ⟨op,hop,hb⟩ := List.mem_flatMap.mp hm
    obtain ⟨j,hj,hk⟩ := mem_branches.mp hb
    refine .inr ⟨op,hop,j,hj,?_⟩
    rw [List.nil_append, List.map_take] at hk
    exact hk

/-- The segment of a node is the root's or stands for a piece of some path. -/
theorem segmentOf_cases (ops : List Operation) (id : Nat) : (build ops).segmentOf id = .root ∨
    ∃ op ∈ ops, ∃ raw ∈ Template.segments op.path, ((build ops).segmentOf id).StandsFor raw := by
  unfold segmentOf
  cases hn : (build ops).nodes[id]? with
  | none => exact .inl rfl
  | some n =>
    rcases exists_segment_of_mem_build (List.mem_of_getElem? hn) with ⟨_,he⟩ | ⟨op,hop,j,hj,_⟩
    · exact .inl he
    · have hlt : j < (Template.segments op.path).length := by
        rw [← op.length_segments]
        exact (List.getElem?_eq_some_iff.mp hj).1
      have hraw := List.getElem?_eq_getElem hlt
      exact .inr ⟨op,hop,_,List.getElem_mem hlt,standsFor_segmentsOf hj hraw⟩

end RouteTree
end ClientGen
