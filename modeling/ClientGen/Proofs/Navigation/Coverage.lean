import ClientGen.Proofs.Navigation.Methods
import ClientGen.Proofs.Navigation.Plans

/-! # Coverage

The file of navigation reaches every operation: its call stands in the implementation of the node
that its path leads to, or a warning tells that navigation starts beside it. That happens only if
navigation starts at a first segment and the path begins with another one.
-/
namespace ClientGen

namespace RouteTree
variable {ops : List Operation}

/-- The children of the root are the nodes with one key. -/
theorem get?_children_root {key : String} {first : Nat} :
    ((build ops).children root).get? key = some first ↔ (build ops).find? [key] = some first := by
  rw [get?_children, find?_iff, keysOf_root, List.nil_append]

theorem ne_empty_of_mem_pathKeys {path key : String} (h : key ∈ pathKeys path) : key ≠ "" := by
  obtain ⟨raw,hraw,rfl⟩ := List.mem_map.mp h
  obtain ⟨cs,hcs,rfl⟩ := List.mem_map.mp hraw
  have hne : cs ≠ [] := by simpa using (List.mem_filter.mp hcs).2
  unfold pieceKey
  split
  · decide
  · exact fun hempty => hne (String.ofList_eq_empty_iff.mp hempty)

/-- No first segment is empty. -/
theorem find?_empty_key : (build ops).find? [""] = none := by
  refine Option.eq_none_iff_forall_ne_some.mpr fun first hfirst => ?_
  have hmem := keysOf_mem (find?_iff.mp hfirst).1
  rw [(find?_iff.mp hfirst).2] at hmem
  rcases mem_keys_build.mp hmem with hnil | ⟨op,_,hpre⟩
  · cases hnil
  · rw [Operation.keys_eq] at hpre
    exact ne_empty_of_mem_pathKeys (hpre.subset (List.mem_singleton_self "")) rfl

end RouteTree

namespace Sdk.Navigation
variable {ops : List Operation} {rootSegment : String}

/-- Positions of the operations at the nodes of the file, node by node. -/
def Plan.held (p : Plan) : List Nat :=
  p.order.flatMap p.tree.operationsAt

/-- Positions of all other operations. -/
def Plan.missed (p : Plan) (ops : List Operation) : List Nat :=
  (List.range ops.length).filter fun i => ! p.held.contains i

/-- What a file with these structs and implementations, and its warnings, do for the operations. -/
structure Covers (p : Plan) (ops : List Operation) (rootSegment : String)
    (method : Nat → Operation → Code.Function) (structs : Nat → Code.Struct)
    (impls : Nat → Code.Impl) (file : Logged Code.Module) : Prop where
  planned : Planned p
  laid_out : LaidOut p structs impls file.value
  /-- The calls of a node are the methods of its operations in order, under names of their own. -/
  calls : ∀ id ∈ p.order, List.Forall₂
    (fun i f => ∃ op, ops[i]? = some op ∧ (method id op).Renamed f)
    (p.tree.operationsAt id) (impls id).calls
  warnings : List.Forall₂
    (fun i w => ∃ op, ops[i]? = some op ∧ w = .outsideNavigation op.id op.path rootSegment)
    (p.missed ops) file.warnings
  /-- No operation is held or missed twice, none is both, and none is neither. -/
  partition : (p.held ++ p.missed ops).Perm (List.range ops.length)
  /-- An operation is at the node that its path leads to and at no other. -/
  led : ∀ i op, ops[i]? = some op → ∃ id, p.tree.descend (pathKeys op.path) = some id ∧
    ∀ q, i ∈ p.tree.operationsAt q ↔ q = id
  missed_iff : ∀ i op, ops[i]? = some op → (i ∈ p.missed ops ↔
    (∃ first, (p.tree.children RouteTree.root).get? rootSegment = some first) ∧
      (pathKeys op.path).head? ≠ some rootSegment)

/-! ## Held and missed operations -/

theorem startNode_cases (ops : List Operation) (rootSegment : String) :
    (∃ first, (RouteTree.build ops).find? [rootSegment] = some first ∧
      startNode (.build ops) rootSegment = first) ∨
    (RouteTree.build ops).find? [rootSegment] = none ∧
      startNode (.build ops) rootSegment = RouteTree.root := by
  unfold startNode
  split
  · rename_i hempty
    rw [String.isEmpty_iff] at hempty
    exact .inr ⟨hempty ▸ RouteTree.find?_empty_key,rfl⟩
  · cases hfind : (RouteTree.build ops).find? [rootSegment] with
    | none => exact .inr ⟨rfl,rfl⟩
    | some first => exact .inl ⟨first,rfl,rfl⟩

/-- The file holds an operation if its path goes through the start. -/
theorem mem_held {i : Nat} {op : Operation} (hop : ops[i]? = some op) :
    i ∈ (Plan.of (.build ops) rootSegment).held ↔
      (RouteTree.build ops).keysOf (startNode (.build ops) rootSegment) <+: pathKeys op.path := by
  obtain ⟨id,hlt,hdescend,hid⟩ := RouteTree.exists_placed hop
  have hkeys : (RouteTree.build ops).keysOf id = pathKeys op.path :=
    (RouteTree.find?_iff.mp ((RouteTree.descend_eq ops _).symm.trans hdescend)).2
  rw [Plan.held, List.mem_flatMap, ← hkeys]
  constructor
  · rintro ⟨q,hq,hi⟩
    rw [← (hid q).mp hi]
    exact prefix_of_mem_order hq
  · intro hpre
    have horder := RouteTree.mem_walk_of_below (startNode_lt ops rootSegment) hlt hpre
    exact ⟨id,horder,(hid id).mpr rfl⟩

theorem mem_missed {p : Plan} {i : Nat} {op : Operation} (hop : ops[i]? = some op) :
    i ∈ p.missed ops ↔ i ∉ p.held := by
  have hlt := (List.getElem?_eq_some_iff.mp hop).1
  simp [Plan.missed, hlt]

/-- Operations are missed only beside a start that is a first segment. -/
theorem mem_missed_iff {i : Nat} {op : Operation} (hop : ops[i]? = some op) :
    i ∈ (Plan.of (.build ops) rootSegment).missed ops ↔
      (∃ first, ((RouteTree.build ops).children RouteTree.root).get? rootSegment = some first) ∧
        (pathKeys op.path).head? ≠ some rootSegment := by
  simp only [mem_missed hop, mem_held hop, RouteTree.get?_children_root]
  rcases startNode_cases ops rootSegment with ⟨first,hfirst,hstart⟩ | ⟨hnone,hstart⟩
  · have hhead : [rootSegment] <+: pathKeys op.path ↔
        (pathKeys op.path).head? = some rootSegment := by
      cases pathKeys op.path <;> simp [eq_comm]
    rw [hstart, (RouteTree.find?_iff.mp hfirst).2, hhead]
    exact (and_iff_right ⟨first,hfirst⟩).symm
  · rw [hstart, RouteTree.keysOf_root, hnone]
    simp

theorem nodup_held (ops : List Operation) (rootSegment : String) :
    (Plan.of (.build ops) rootSegment).held.Nodup := by
  refine List.nodup_flatMap.mpr ⟨fun id _ => ?_,(RouteTree.nodup_walk _).imp ?_⟩
  · exact (RouteTree.operationsAt_increasing ops id).imp Nat.ne_of_lt
  · intro a b hne i ha hb
    obtain ⟨_,op,hop,_⟩ := RouteTree.mem_operationsAt.mp ha
    obtain ⟨_,_,_,hid⟩ := RouteTree.exists_placed hop
    exact hne (((hid a).mp ha).trans ((hid b).mp hb).symm)

/-- Distinct positions below a bound, with all others below it, are all of them. -/
theorem perm_append_others {n : Nat} {is : List Nat} (hnodup : is.Nodup) (hlt : ∀ i ∈ is, i < n) :
    (is ++ (List.range n).filter fun i => ! is.contains i).Perm (List.range n) := by
  have hthese : is.Perm ((List.range n).filter is.contains) := by
    refine (List.perm_ext_iff_of_nodup hnodup (List.nodup_range.filter _)).mpr fun i => ?_
    rw [List.mem_filter, List.contains_iff_mem, List.mem_range]
    exact (and_iff_right_of_imp (hlt i)).symm
  exact (hthese.append_right _).trans (List.filter_append_perm _ _)

theorem perm_held_missed (ops : List Operation) (rootSegment : String) :
    ((Plan.of (.build ops) rootSegment).held ++
      (Plan.of (.build ops) rootSegment).missed ops).Perm (List.range ops.length) := by
  refine perm_append_others (nodup_held ops rootSegment) fun i hi => ?_
  obtain ⟨id,_,hi⟩ := List.mem_flatMap.mp hi
  obtain ⟨_,op,hop,_⟩ := RouteTree.mem_operationsAt.mp hi
  exact (List.getElem?_eq_some_iff.mp hop).1

/-! ## Warnings -/

theorem missed_eq (p : Plan) (ops : List Operation) : p.missed ops =
    (ops.zipIdx.filter fun e => ! p.held.contains e.2).map (·.2) := by
  rw [Plan.missed, List.range_eq_range', ← List.zipIdx_map_snd 0 ops, List.filter_map]
  rfl

theorem warnings_moduleOf (models : List Model) (paths : ModulePaths) :
    List.Forall₂
      (fun i w => ∃ op, ops[i]? = some op ∧ w = .outsideNavigation op.id op.path rootSegment)
      ((Plan.of (.build ops) rootSegment).missed ops)
      (moduleOf models ops rootSegment paths).warnings := by
  have hwarnings : (moduleOf models ops rootSegment paths).warnings =
      (outside (Plan.of (.build ops) rootSegment) ops).map fun op =>
        .outsideNavigation op.id op.path rootSegment := by
    simp [moduleOf, List.map_eq_flatMap]
  rw [hwarnings, missed_eq, outside, List.map_map, List.forall₂_map_left_iff,
    List.forall₂_map_right_iff]
  refine List.forall₂_same.mpr fun e he => ?_
  exact ⟨e.1,List.mem_zipIdx_iff_getElem?.mp (List.mem_of_mem_filter he),rfl⟩

/-- Every operation is called from the node that its path leads to, or a warning names it. -/
theorem every_operation_covered (models : List Model) (ops : List Operation) (rootSegment : String)
    (paths : ModulePaths) :
    Covers (.of (.build ops) rootSegment) ops rootSegment
      (operationMethod (.of (.build ops) rootSegment) (.ofModels models (some paths.models)) paths)
      (nodeStruct (.of (.build ops) rootSegment) paths)
      (nodeImpl (.of (.build ops) rootSegment) (.ofModels models (some paths.models)) paths ops)
      (moduleOf models ops rootSegment paths) where
  planned := planned_of ops rootSegment
  laid_out := laidOut_moduleOf models ops rootSegment paths
  calls := fun _ _ => calls_nodeImpl rfl
  warnings := warnings_moduleOf models paths
  partition := perm_held_missed ops rootSegment
  led := by
    intro i op hop
    obtain ⟨id,_,hdescend,hid⟩ := RouteTree.exists_placed hop
    exact ⟨id,hdescend,hid⟩
  missed_iff := fun _ _ => mem_missed_iff

end Sdk.Navigation
end ClientGen
