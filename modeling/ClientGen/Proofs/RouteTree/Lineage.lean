import ClientGen.Proofs.Data.Dict
import ClientGen.Proofs.RouteTree.Build

/-! # Ways through a route tree

A node is found by its keys, its lineage has one node for each beginning of its keys, and a walk
stays below the node that it starts from.
-/
namespace ClientGen.RouteTree
variable {ops : List Operation}

/-! ## Nodes and keys -/

theorem keysOf_eq {t : RouteTree} {id : Nat} {n : RouteNode} (h : t.nodes[id]? = some n) :
    t.keysOf id = n.keys := by
  simp [keysOf, h]

theorem keysOf_of_le {t : RouteTree} {id : Nat} (h : t.nodes.length ≤ id) : t.keysOf id = [] := by
  simp [keysOf, h]

theorem keysOf_mem {t : RouteTree} {id : Nat} (h : id < t.nodes.length) :
    t.keysOf id ∈ t.nodes.map (·.keys) := by
  rw [keysOf_eq (List.getElem?_eq_getElem h)]
  exact List.mem_map_of_mem (List.getElem_mem h)

theorem eq_of_keysOf_eq {id id' : Nat} (h : id < (build ops).nodes.length)
    (h' : id' < (build ops).nodes.length) (he : (build ops).keysOf id = (build ops).keysOf id') :
    id = id' := by
  rw [keysOf_eq (List.getElem?_eq_getElem h), keysOf_eq (List.getElem?_eq_getElem h')] at he
  refine (List.getElem?_inj (by rwa [List.length_map]) (nodup_keys_build ops)).mp ?_
  rw [List.getElem?_map, List.getElem?_map, List.getElem?_eq_getElem h,
    List.getElem?_eq_getElem h', Option.map_some, Option.map_some, he]

theorem find?_eq_some {ks : List String} {id : Nat} (h : (build ops).find? ks = some id) :
    id < (build ops).nodes.length ∧ (build ops).keysOf id = ks := by
  obtain ⟨hlt,hk,_⟩ := List.findIdx?_eq_some_iff_getElem.mp h
  refine ⟨hlt,?_⟩
  rw [keysOf_eq (List.getElem?_eq_getElem hlt)]
  simpa using hk

theorem exists_find? {ks : List String} (h : ks ∈ (build ops).nodes.map (·.keys)) :
    ∃ id, (build ops).find? ks = some id := by
  obtain ⟨n,hn,rfl⟩ := List.mem_map.mp h
  refine Option.isSome_iff_exists.mp ?_
  rw [find?, List.findIdx?_isSome]
  exact List.any_eq_true.mpr ⟨n,hn,beq_self_eq_true _⟩

theorem find?_iff {ks : List String} {id : Nat} : (build ops).find? ks = some id ↔
    id < (build ops).nodes.length ∧ (build ops).keysOf id = ks := by
  constructor
  · exact find?_eq_some
  · rintro ⟨hlt,rfl⟩
    obtain ⟨id',hid'⟩ := exists_find? (keysOf_mem hlt)
    obtain ⟨hlt',hk⟩ := find?_eq_some hid'
    rw [hid', eq_of_keysOf_eq hlt' hlt hk]

theorem mem_keys_of_above {ks pre : List String} (h : ks ∈ (build ops).nodes.map (·.keys))
    (hp : pre <+: ks) : pre ∈ (build ops).nodes.map (·.keys) := by
  rcases mem_keys_build.mp h with rfl | ⟨op,hop,hks⟩
  · rw [List.prefix_nil.mp hp]
    exact h
  · exact mem_keys_build.mpr (.inr ⟨op,hop,hp.trans hks⟩)

/-! ## Segments and operations of nodes -/

theorem getLast?_take_succ {ks : List String} {j : Nat} (h : j < ks.length) :
    (ks.take (j + 1)).getLast? = ks[j]? := by
  rw [List.getLast?_take, if_neg (Nat.succ_ne_zero j), Nat.add_sub_cancel,
    List.getElem?_eq_getElem h, Option.some_or]

/-- The kind of a node can be read off the last of its keys. -/
theorem isParam_segmentOf {id : Nat} :
    ((build ops).segmentOf id).isParam = true ↔
      ((build ops).keysOf id).getLast? = some Segment.paramKey := by
  by_cases h : id < (build ops).nodes.length
  · have hn := List.getElem?_eq_getElem h
    have hsegment : (build ops).segmentOf id = ((build ops).nodes[id]).segment := by
      simp [segmentOf, hn]
    rw [hsegment, keysOf_eq hn]
    rcases exists_segment_of_mem_build (List.getElem_mem h) with ⟨hk,hs⟩ | ⟨op,_,j,hs,hk⟩
    · rw [hk, hs]
      simp [Segment.isParam]
    · have hlt : j < op.segments.length := (List.getElem?_eq_some_iff.mp hs).1
      have hraw := List.getElem?_eq_getElem (op.length_segments ▸ hlt)
      have hj : j < op.keys.length := by rwa [Operation.keys, List.length_map]
      rw [hk, getLast?_take_succ hj, Operation.keys, List.getElem?_map, hs, Option.map_some,
        Option.some.injEq]
      exact (standsFor_segmentsOf hs hraw).key_eq_paramKey.symm
  · rw [keysOf_of_le (Nat.le_of_not_lt h), segmentOf, List.getElem?_eq_none (Nat.le_of_not_lt h)]
    simp [Segment.isParam]

theorem mem_endingAt {keys : List String} {k : Nat} :
    k ∈ endingAt ops keys ↔ ∃ op, ops[k]? = some op ∧ op.keys = keys := by
  simp [endingAt, List.mk_mem_zipIdx_iff_getElem?]

theorem operationsAt_build {id : Nat} (h : id < (build ops).nodes.length) :
    (build ops).operationsAt id = endingAt ops ((build ops).keysOf id) := by
  rw [operationsAt, keysOf, getElem?_build, List.getElem?_eq_getElem (length_build ops ▸ h)]
  rfl

theorem operationsAt_of_le {id : Nat} (h : (build ops).nodes.length ≤ id) :
    (build ops).operationsAt id = [] := by
  rw [operationsAt, List.getElem?_eq_none h]
  rfl

/-- The operations at a node are those with its keys. -/
theorem mem_operationsAt {id k : Nat} : k ∈ (build ops).operationsAt id ↔
    id < (build ops).nodes.length ∧
      ∃ op, ops[k]? = some op ∧ op.keys = (build ops).keysOf id := by
  by_cases h : id < (build ops).nodes.length
  · simp [operationsAt_build h, mem_endingAt, h]
  · simp [operationsAt_of_le (Nat.le_of_not_lt h), h]

theorem keys_of_mem_operationsAt {id i : Nat} (hi : i ∈ (build ops).operationsAt id)
    {op : Operation} (hop : ops[i]? = some op) :
    id < (build ops).nodes.length ∧ op.keys = (build ops).keysOf id := by
  obtain ⟨hlt,op',hop',hkeys⟩ := mem_operationsAt.mp hi
  rw [hop, Option.some.injEq] at hop'
  exact ⟨hlt,hop' ▸ hkeys⟩

theorem operationsAt_increasing (ops : List Operation) (id : Nat) :
    ((build ops).operationsAt id).Pairwise (· < ·) := by
  by_cases h : id < (build ops).nodes.length
  · have hall : (ops.zipIdx.map (·.2)).Pairwise (· < ·) := by
      rw [List.zipIdx_map_snd]
      exact List.pairwise_lt_range'
    rw [operationsAt_build h]
    exact hall.sublist (List.filter_sublist.map _)
  · rw [operationsAt_of_le (Nat.le_of_not_lt h)]
    exact .nil

/-! ## Lineage -/

theorem getElem?_stems {ks : List String} {j : Nat} (h : j < ks.length) :
    (stems ks)[j]? = some (ks.take (j + 1)) := by
  induction ks generalizing j with
  | nil => simp at h
  | cons k rest ih =>
    cases j with
    | zero => rfl
    | succ j =>
      rw [stems, List.getElem?_cons_succ, List.getElem?_map, ih (Nat.lt_of_succ_lt_succ h)]
      rfl

theorem length_stems (ks : List String) : (stems ks).length = ks.length := by
  induction ks with
  | nil => rfl
  | cons k rest ih => simp [stems, ih]

theorem getElem?_filterMap {α β : Type} {f : α → Option β} {xs : List α}
    (h : ∀ x ∈ xs, ∃ y, f x = some y) (j : Nat) : (xs.filterMap f)[j]? = xs[j]?.bind f := by
  induction xs generalizing j with
  | nil => rfl
  | cons x xs ih =>
    obtain ⟨y,hy⟩ := h x List.mem_cons_self
    rw [List.filterMap_cons_some hy]
    cases j with
    | zero => simp [hy]
    | succ j => exact ih (fun x hx => h x (List.mem_cons_of_mem _ hx)) j

theorem exists_find?_of_mem_stems {id : Nat} {ks : List String}
    (h : ks ∈ stems ((build ops).keysOf id)) : ∃ n, (build ops).find? ks = some n := by
  obtain ⟨j,hj,rfl⟩ := List.mem_iff_getElem.mp h
  have hlt : j < ((build ops).keysOf id).length := by rwa [length_stems] at hj
  have hid : id < (build ops).nodes.length := by
    by_contra hle
    simp [keysOf_of_le (Nat.le_of_not_lt hle)] at hlt
  have hstem := getElem?_stems hlt
  rw [List.getElem?_eq_getElem hj, Option.some.injEq] at hstem
  rw [hstem]
  exact exists_find? (mem_keys_of_above (keysOf_mem hid) (List.take_prefix _ _))

theorem length_lineage (id : Nat) : ((build ops).lineage id).length = (build ops).depth id := by
  rw [lineage, depth, ← length_stems]
  refine List.filterMap_length_eq_length.mpr fun ks hks => ?_
  exact Option.isSome_iff_exists.mpr (exists_find?_of_mem_stems hks)

/-- The lineage has a node for each beginning of the keys. -/
theorem getElem?_lineage {id j : Nat} (h : j < (build ops).depth id) :
    ((build ops).lineage id)[j]? = (build ops).find? (((build ops).keysOf id).take (j + 1)) := by
  rw [lineage, getElem?_filterMap fun ks => exists_find?_of_mem_stems, getElem?_stems h,
    Option.bind_some]

theorem keysOf_of_mem_lineage {id j n : Nat} (hn : ((build ops).lineage id)[j]? = some n) :
    j < (build ops).depth id ∧ (build ops).keysOf n = ((build ops).keysOf id).take (j + 1) ∧
      (build ops).depth n = j + 1 := by
  have hj : j < (build ops).depth id := by
    rw [← length_lineage]
    exact (List.getElem?_eq_some_iff.mp hn).1
  rw [getElem?_lineage hj] at hn
  have hkeys := (find?_eq_some hn).2
  refine ⟨hj,hkeys,?_⟩
  rw [depth, hkeys, List.length_take]
  exact Nat.min_eq_left hj

/-- The lineage of an ancestor is the beginning of the lineage. -/
theorem lineage_of_getElem? {id j n : Nat} (hn : ((build ops).lineage id)[j]? = some n) :
    (build ops).lineage n = ((build ops).lineage id).take (j + 1) := by
  obtain ⟨hj,hkeys,hdepth⟩ := keysOf_of_mem_lineage hn
  refine List.ext_getElem? fun k => ?_
  by_cases hk : k < j + 1
  · rw [List.getElem?_take_of_lt hk, getElem?_lineage (hdepth ▸ hk), hkeys, List.take_take,
      Nat.min_eq_left hk, getElem?_lineage (by omega)]
  · rw [List.getElem?_eq_none (by rw [length_lineage, hdepth]; omega),
      List.getElem?_eq_none (by rw [List.length_take]; omega)]

theorem nodup_lineage (id : Nat) : ((build ops).lineage id).Nodup := by
  refine List.nodup_iff_getElem?_ne_getElem?.mpr fun i j hij hj he => ?_
  have hn := List.getElem?_eq_getElem hj
  have hi := (keysOf_of_mem_lineage (he.trans hn)).2.2
  rw [(keysOf_of_mem_lineage hn).2.2] at hi
  omega

/-! ## Children -/

/-- The entry of a node in the table of the children of `id`. -/
def keyedChild? (t : RouteTree) (id : Nat) (e : RouteNode × Nat) : Option (String × Nat) :=
  match e.1.keys.getLast? with
  | some key => if e.1.keys.dropLast == t.keysOf id then some (key,e.2) else none
  | none => none

theorem children_eq (t : RouteTree) (id : Nat) :
    t.children id = .ofList (t.nodes.zipIdx.filterMap (t.keyedChild? id)) := rfl

theorem mem_keyedChildren {id child : Nat} {key : String} :
    (key,child) ∈ (build ops).nodes.zipIdx.filterMap ((build ops).keyedChild? id) ↔
      child < (build ops).nodes.length ∧
        (build ops).keysOf child = (build ops).keysOf id ++ [key] := by
  rw [List.mem_filterMap]
  constructor
  · rintro ⟨⟨n,child'⟩,hn,hsome⟩
    have hget := List.mk_mem_zipIdx_iff_getElem?.mp hn
    unfold keyedChild? at hsome
    cases hlast : n.keys.getLast? with
    | none => simp [hlast] at hsome
    | some last =>
      simp only [hlast, Option.ite_none_right_eq_some, beq_iff_eq, Option.some.injEq] at hsome
      obtain ⟨hparent,he⟩ := hsome
      cases he
      refine ⟨(List.getElem?_eq_some_iff.mp hget).1,?_⟩
      rw [keysOf_eq hget, ← hparent]
      exact (List.dropLast_append_getLast? key hlast).symm
  · rintro ⟨hlt,hkeys⟩
    have hget := List.getElem?_eq_getElem hlt
    refine ⟨((build ops).nodes[child],child),List.mk_mem_zipIdx_iff_getElem?.mpr hget,?_⟩
    rw [keysOf_eq hget] at hkeys
    simp [keyedChild?, hkeys]

/-- A child's keys are those of its parent and one more. -/
theorem get?_children {id child : Nat} {key : String} :
    ((build ops).children id).get? key = some child ↔ child < (build ops).nodes.length ∧
      (build ops).keysOf child = (build ops).keysOf id ++ [key] := by
  rw [children_eq]
  constructor
  · intro h
    exact mem_keyedChildren.mp (Dict.mem_of_get?_ofList h)
  · intro h
    refine Dict.get?_ofList_of_mem (mem_keyedChildren.mpr h) fun other hother => ?_
    obtain ⟨hlt,hkeys⟩ := mem_keyedChildren.mp hother
    exact eq_of_keysOf_eq hlt h.1 (hkeys.trans h.2.symm)

theorem keysOf_of_mem_children {id child : Nat} (h : child ∈ ((build ops).children id).values) :
    child < (build ops).nodes.length ∧
      ∃ key, (build ops).keysOf child = (build ops).keysOf id ++ [key] := by
  obtain ⟨key,hkey⟩ := Dict.mem_values_iff.mp h
  obtain ⟨hlt,hkeys⟩ := get?_children.mp hkey
  exact ⟨hlt,key,hkeys⟩

/-! ## Walks -/

theorem prefix_of_mem_walkAt {fuel start id : Nat} (hs : start < (build ops).nodes.length)
    (h : id ∈ (build ops).walkAt fuel start) :
    id < (build ops).nodes.length ∧ (build ops).keysOf start <+: (build ops).keysOf id := by
  induction fuel generalizing start with
  | zero => simp [walkAt] at h
  | succ fuel ih =>
    rcases List.mem_cons.mp h with rfl | h
    · exact ⟨hs,List.prefix_refl _⟩
    · obtain ⟨child,hchild,h⟩ := List.mem_flatMap.mp h
      obtain ⟨hlt,key,hkeys⟩ := keysOf_of_mem_children hchild
      obtain ⟨hid,hpre⟩ := ih hlt h
      exact ⟨hid,(hkeys ▸ List.prefix_append _ _ : _ <+: _).trans hpre⟩

/-- A walk stays below its start. -/
theorem prefix_of_mem_walk {start id : Nat} (hs : start < (build ops).nodes.length)
    (h : id ∈ (build ops).walk start) :
    id < (build ops).nodes.length ∧ (build ops).keysOf start <+: (build ops).keysOf id :=
  prefix_of_mem_walkAt hs h

end ClientGen.RouteTree
