import ClientGen.Proofs.RouteTree.Growth

/-! # The shape of a route tree

The tree of some operations as an arena: every node but the root is the child of one earlier node
under one key, every operation ends at the node that its keys lead to, and what a node says of its
parameter was settled by the first operation that passed it.
-/
namespace ClientGen.RouteTree

/-- The node that child keys lead to from the root. -/
def descend (t : RouteTree) (keys : List String) : Option Nat :=
  keys.foldlM (fun id key => (t.children id).get? key) root

/-- A node is on the way that a path's keys lead. -/
def LeadsThrough (t : RouteTree) (path : String) (id : Nat) : Prop :=
  ∃ keys, keys <+: pathKeys path ∧ t.descend keys = some id

variable {ops : List Operation}

/-! ## Nodes -/

theorem keysOf_build (ops : List Operation) (id : Nat) :
    (build ops).keysOf id = ((grown ops)[id]?.map (·.keys)).getD [] := by
  rw [keysOf, getElem?_build, Option.map_map, Function.comp_def]

theorem segmentOf_build (ops : List Operation) (id : Nat) :
    (build ops).segmentOf id = ((grown ops)[id]?.map (·.segment)).getD .root := by
  rw [segmentOf, getElem?_build, Option.map_map, Function.comp_def]

theorem getElem?_grown_root (ops : List Operation) : (grown ops)[root]? = some ⟨[],.root,[]⟩ := by
  have hpre := prefix_foldl_grow (ops.flatMap fun op => branches [] op.segments) [⟨[],.root,[]⟩]
  exact List.prefix_iff_getElem?.mp hpre root Nat.one_pos

theorem root_lt (ops : List Operation) : root < (build ops).nodes.length := by
  rw [length_build]
  exact (List.getElem?_eq_some_iff.mp (getElem?_grown_root ops)).1

theorem keysOf_root (ops : List Operation) : (build ops).keysOf root = [] := by
  rw [keysOf_build, getElem?_grown_root]
  rfl

theorem keysOf_eq_nil {id : Nat} (h : id < (build ops).nodes.length) :
    (build ops).keysOf id = [] ↔ id = root := by
  constructor
  · intro he
    exact eq_of_keysOf_eq h (root_lt ops) (he.trans (keysOf_root ops).symm)
  · rintro rfl
    exact keysOf_root ops

/-! ## Children and parents -/

theorem descend_concat (t : RouteTree) (ks : List String) (k : String) :
    t.descend (ks ++ [k]) = (t.descend ks).bind fun id => (t.children id).get? k := by
  simp [descend]

/-- Going down by keys is looking the keys up. -/
theorem descend_eq (ops : List Operation) (ks : List String) :
    (build ops).descend ks = (build ops).find? ks := by
  induction ks using List.reverseRecOn with
  | nil => exact (find?_iff.mpr ⟨root_lt ops,keysOf_root ops⟩).symm
  | append_singleton ks k ih =>
    rw [descend_concat, ih]
    cases hfound : (build ops).find? ks with
    | none =>
      -- a node with more keys would have the node above it
      refine (Option.eq_none_iff_forall_ne_some.mpr fun child hchild => ?_).symm
      obtain ⟨hlt,hkeys⟩ := find?_iff.mp hchild
      have habove := mem_keys_of_above (keysOf_mem hlt) (hkeys ▸ List.prefix_append ks [k])
      obtain ⟨id,hid⟩ := exists_find? habove
      simp [hfound] at hid
    | some id =>
      obtain ⟨_,hkeys⟩ := find?_iff.mp hfound
      refine Option.ext fun child => ?_
      rw [Option.bind_some, get?_children, find?_iff, hkeys]

theorem parented_grown (ops : List Operation) : Parented (grown ops) := by
  have hstart : Parented [⟨[],.root,[]⟩] := by
    intro i n hn hne
    exact absurd (List.mem_singleton.mp (List.mem_of_getElem? hn) ▸ rfl) hne
  exact hstart.foldl_operations (by simp)

theorem parent?_eq {id : Nat} (h : id < (build ops).nodes.length) (hne : id ≠ root) :
    (build ops).parent? id = (build ops).find? ((build ops).keysOf id).dropLast := by
  have hkeys := mt (keysOf_eq_nil h).mp hne
  unfold parent?
  split
  · rename_i hnil
    exact absurd hnil hkeys
  · rfl

/-- A node below the root has its parent among the earlier nodes. -/
theorem exists_parent {id : Nat} (h : id < (build ops).nodes.length) (hne : id ≠ root) :
    ∃ p < id, (build ops).parent? id = some p ∧
      (build ops).keysOf p = ((build ops).keysOf id).dropLast := by
  have hkeys := mt (keysOf_eq_nil h).mp hne
  have hn := List.getElem?_eq_getElem (length_build ops ▸ h)
  rw [keysOf_build, hn] at hkeys
  obtain ⟨p,m,hp,hm,hdrop⟩ := parented_grown ops id _ hn hkeys
  have hpkeys : (build ops).keysOf p = ((build ops).keysOf id).dropLast := by
    rw [keysOf_build, keysOf_build, hm, hn]
    exact hdrop
  refine ⟨p,hp,?_,hpkeys⟩
  rw [parent?_eq h hne, find?_iff]
  exact ⟨Nat.lt_trans hp h,hpkeys⟩

/-! ## The operation that made a node -/

/-- The segment of a node is that of the first operation with its keys. -/
theorem exists_first {id : Nat} (h : id < (build ops).nodes.length) (hne : id ≠ root) :
    ∃ before op after j, ops = before ++ op :: after ∧
      op.segments[j]? = some ((build ops).segmentOf id) ∧
      (build ops).keysOf id = op.keys.take (j + 1) ∧
      ∀ o ∈ before, ¬ (build ops).keysOf id <+: o.keys := by
  have hkeys := mt (keysOf_eq_nil h).mp hne
  obtain ⟨n,hn⟩ : ∃ n, (grown ops)[id]? = some n :=
    ⟨_,List.getElem?_eq_getElem (length_build ops ▸ h)⟩
  rw [segmentOf_build, keysOf_build, hn]
  rw [keysOf_build, hn] at hkeys
  have hfirst := find?_of_mem_foldl_grow (by simp) (List.mem_of_getElem? hn) (by simpa using hkeys)
  rw [List.find?_flatMap, List.findSome?_eq_some_iff] at hfirst
  obtain ⟨before,op,after,hops,hop,hbefore⟩ := hfirst
  obtain ⟨j,hj,hk⟩ := mem_branches.mp (List.mem_of_find?_eq_some hop)
  rw [List.nil_append, List.map_take] at hk
  refine ⟨before,op,after,j,hops,hj,hk,fun o ho hpre => ?_⟩
  obtain ⟨b,hb,hbk⟩ := List.mem_map.mp (mem_map_fst_branches.mpr ⟨hkeys,hpre⟩)
  exact List.find?_eq_none.mp (hbefore o ho) b hb (beq_iff_eq.mpr hbk)

/-- The last key of a node is that of its segment. -/
theorem keysOf_eq_dropLast_append {id : Nat} (h : id < (build ops).nodes.length)
    (hne : id ≠ root) : (build ops).keysOf id =
      ((build ops).keysOf id).dropLast ++ [((build ops).segmentOf id).key] := by
  obtain ⟨_,op,_,j,_,hj,hk,_⟩ := exists_first h hne
  have hkey : op.keys[j]? = some ((build ops).segmentOf id).key := by
    rw [Operation.keys, List.getElem?_map, hj, Option.map_some]
  have hlt := (List.getElem?_eq_some_iff.mp hkey).1
  have hlast : ((build ops).keysOf id).getLast? = some ((build ops).segmentOf id).key := by
    rw [hk, getLast?_take_succ hlt, hkey]
  exact (List.dropLast_append_getLast? _ hlast).symm

/-! ## Later operations -/

/-- More operations only add nodes. -/
theorem grown_append (ops later : List Operation) : grown ops <+: grown (ops ++ later) := by
  rw [grown, grown, List.flatMap_append, List.foldl_append]
  exact prefix_foldl_grow _ _

theorem getElem?_grown_append {id : Nat} (h : id < (build ops).nodes.length)
    (later : List Operation) : (grown (ops ++ later))[id]? = (grown ops)[id]? := by
  have hlt : id < (grown ops).length := length_build ops ▸ h
  rw [List.prefix_iff_getElem?.mp (grown_append ops later) id hlt, List.getElem?_eq_getElem hlt]

theorem keysOf_append {id : Nat} (h : id < (build ops).nodes.length) (later : List Operation) :
    (build (ops ++ later)).keysOf id = (build ops).keysOf id := by
  rw [keysOf_build, keysOf_build, getElem?_grown_append h]

theorem segmentOf_append {id : Nat} (h : id < (build ops).nodes.length)
    (later : List Operation) :
    (build (ops ++ later)).segmentOf id = (build ops).segmentOf id := by
  rw [segmentOf_build, segmentOf_build, getElem?_grown_append h]

/-! ## The tree as a whole -/

/-- What `t` is as the tree of `ops`. -/
structure Represents (t : RouteTree) (ops : List Operation) : Prop where
  root_lt : root < t.nodes.length
  segmentOf_root : t.segmentOf root = .root
  depth_root : t.depth root = 0
  parent?_eq_none : ∀ id < t.nodes.length, t.parent? id = none ↔ id = root
  /-- A node's parent comes before it and has it under the key of its segment; no other node has it,
  and no other key leads to it. -/
  child : ∀ id < t.nodes.length, id ≠ root → ∃ p < id,
    t.parent? id = some p ∧ t.depth id = t.depth p + 1 ∧ t.segmentOf id ≠ .root ∧
      ∀ q < t.nodes.length, ∀ key,
        (t.children q).get? key = some id ↔ q = p ∧ key = (t.segmentOf id).key
  /-- Children of one node differ in their keys. -/
  siblings : ∀ id < t.nodes.length, ∀ id' < t.nodes.length, id ≠ root → id' ≠ root →
    t.parent? id = t.parent? id' → (t.segmentOf id).key = (t.segmentOf id').key → id = id'
  literal_ne : ∀ id text, t.segmentOf id = .literal text → text ≠ Segment.paramKey
  /-- An operation is listed at the node that its keys lead to and at no other. -/
  placed : ∀ k op, ops[k]? = some op → ∃ id < t.nodes.length,
    t.descend (pathKeys op.path) = some id ∧ ∀ q, k ∈ t.operationsAt q ↔ q = id
  listed_lt : ∀ q, ∀ k ∈ t.operationsAt q, k < ops.length
  listed_increasing : ∀ q, (t.operationsAt q).Pairwise (· < ·)
  together : ∀ k k' op op', ops[k]? = some op → ops[k']? = some op' →
    ((∃ q, k ∈ t.operationsAt q ∧ k' ∈ t.operationsAt q) ↔ pathKeys op.path = pathKeys op'.path)
  /-- Every node is on the way of an operation, but for the root of the tree of no operations. -/
  passed : ∀ id < t.nodes.length, id = root ∧ ops = [] ∨ ∃ op ∈ ops, t.LeadsThrough op.path id
  /-- A parameter has its name and type from the first operation that passes it. -/
  param : ∀ id name type, t.segmentOf id = .param name type →
    ∃ before op after j raw, ops = before ++ op :: after ∧ t.LeadsThrough op.path id ∧
      (∀ o ∈ before, ¬ t.LeadsThrough o.path id) ∧ t.depth id = j + 1 ∧
      (Template.segments op.path)[j]? = some raw ∧
      Template.wholePlaceholder? raw = some name ∧ type = op.typeAt j

theorem leadsThrough_iff {path : String} {id : Nat} : (build ops).LeadsThrough path id ↔
    id < (build ops).nodes.length ∧ (build ops).keysOf id <+: pathKeys path := by
  simp only [LeadsThrough, descend_eq, find?_iff]
  constructor
  · rintro ⟨keys,hpre,hlt,rfl⟩
    exact ⟨hlt,hpre⟩
  · rintro ⟨hlt,hpre⟩
    exact ⟨_,hpre,hlt,rfl⟩

theorem segmentOf_eq_root {id : Nat} (h : id < (build ops).nodes.length) :
    (build ops).segmentOf id = .root ↔ id = root := by
  constructor
  · intro hs
    by_contra hne
    obtain ⟨_,op,_,j,_,hj,_⟩ := exists_first h hne
    rw [Operation.getElem?_segments, hs, Option.map_eq_some_iff] at hj
    obtain ⟨raw,_,hraw⟩ := hj
    cases hw : Template.wholePlaceholder? raw <;> simp [hw] at hraw
  · rintro rfl
    rw [segmentOf_build, getElem?_grown_root]
    rfl

theorem parent?_eq_none_iff {id : Nat} (h : id < (build ops).nodes.length) :
    (build ops).parent? id = none ↔ id = root := by
  constructor
  · intro hnone
    by_contra hne
    obtain ⟨p,_,hp,_⟩ := exists_parent h hne
    simp [hnone] at hp
  · rintro rfl
    rw [parent?, keysOf_root]

/-- Where a node stands among the children of others. -/
theorem get?_children_eq_iff {id p : Nat} (h : id < (build ops).nodes.length) (hne : id ≠ root)
    (hp : p < (build ops).nodes.length)
    (hkeys : (build ops).keysOf p = ((build ops).keysOf id).dropLast) {q : Nat}
    (hq : q < (build ops).nodes.length) {key : String} :
    ((build ops).children q).get? key = some id ↔
      q = p ∧ key = ((build ops).segmentOf id).key := by
  have hsplit := keysOf_eq_dropLast_append h hne
  rw [get?_children]
  constructor
  · rintro ⟨_,he⟩
    rw [hsplit, ← hkeys] at he
    obtain ⟨hk,hkey⟩ := List.append_inj' he rfl
    exact ⟨eq_of_keysOf_eq hq hp hk.symm,(List.singleton_inj.mp hkey).symm⟩
  · rintro ⟨rfl,rfl⟩
    exact ⟨h,hkeys ▸ hsplit⟩

theorem eq_of_parent?_eq {id id' : Nat} (h : id < (build ops).nodes.length)
    (h' : id' < (build ops).nodes.length) (hne : id ≠ root) (hne' : id' ≠ root)
    (hparent : (build ops).parent? id = (build ops).parent? id')
    (hkey : ((build ops).segmentOf id).key = ((build ops).segmentOf id').key) : id = id' := by
  obtain ⟨p,_,hp,hkeys⟩ := exists_parent h hne
  obtain ⟨p',_,hp',hkeys'⟩ := exists_parent h' hne'
  have hpp : p = p' := Option.some.inj (hp.symm.trans (hparent.trans hp'))
  refine eq_of_keysOf_eq h h' ?_
  rw [keysOf_eq_dropLast_append h hne, keysOf_eq_dropLast_append h' hne', ← hkeys, ← hkeys', hpp,
    hkey]

theorem literal_ne_paramKey {id : Nat} {text : String}
    (h : (build ops).segmentOf id = .literal text) : text ≠ Segment.paramKey := by
  rcases segmentOf_cases ops id with hroot | ⟨_,_,raw,_,hstands⟩
  · simp [h] at hroot
  · have hkey := hstands.key_eq_paramKey
    rw [h] at hkey
    exact fun htext => absurd (hkey.mp htext) Bool.false_ne_true

theorem exists_placed {k : Nat} {op : Operation} (hop : ops[k]? = some op) :
    ∃ id < (build ops).nodes.length, (build ops).descend (pathKeys op.path) = some id ∧
      ∀ q, k ∈ (build ops).operationsAt q ↔ q = id := by
  have hmem : pathKeys op.path ∈ (build ops).nodes.map (·.keys) :=
    mem_keys_build.mpr (.inr ⟨op,List.mem_of_getElem? hop,op.keys_eq ▸ List.prefix_refl _⟩)
  obtain ⟨id,hid⟩ := exists_find? hmem
  obtain ⟨hlt,hkeys⟩ := find?_iff.mp hid
  refine ⟨id,hlt,(descend_eq ops _).trans hid,fun q => ?_⟩
  rw [mem_operationsAt]
  constructor
  · rintro ⟨hq,op',hop',hkeys'⟩
    rw [hop, Option.some.injEq] at hop'
    exact eq_of_keysOf_eq hq hlt (by rw [hkeys, ← hkeys', hop', op'.keys_eq])
  · rintro rfl
    exact ⟨hlt,op,hop,op.keys_eq.trans hkeys.symm⟩

theorem together_iff {k k' : Nat} {op op' : Operation} (hop : ops[k]? = some op)
    (hop' : ops[k']? = some op') :
    (∃ q, k ∈ (build ops).operationsAt q ∧ k' ∈ (build ops).operationsAt q) ↔
      pathKeys op.path = pathKeys op'.path := by
  constructor
  · rintro ⟨q,hk,hk'⟩
    have hkeys := (keys_of_mem_operationsAt hk hop).2
    have hkeys' := (keys_of_mem_operationsAt hk' hop').2
    rw [← op.keys_eq, ← op'.keys_eq, hkeys, hkeys']
  · intro he
    obtain ⟨id,hlt,hdescend,hid⟩ := exists_placed hop
    rw [descend_eq, find?_iff] at hdescend
    refine ⟨id,(hid id).mpr rfl,mem_operationsAt.mpr ⟨hlt,op',hop',?_⟩⟩
    rw [op'.keys_eq, ← he, hdescend.2]

theorem exists_passing {id : Nat} (h : id < (build ops).nodes.length) :
    id = root ∧ ops = [] ∨ ∃ op ∈ ops, (build ops).LeadsThrough op.path id := by
  rcases mem_keys_build.mp (keysOf_mem h) with hnil | ⟨op,hop,hpre⟩
  · cases hops : ops with
    | nil => exact .inl ⟨(keysOf_eq_nil h).mp hnil,rfl⟩
    | cons op rest =>
      rw [hops] at h hnil
      refine .inr ⟨op,List.mem_cons_self,leadsThrough_iff.mpr ⟨h,?_⟩⟩
      rw [hnil]
      exact List.nil_prefix
  · exact .inr ⟨op,hop,leadsThrough_iff.mpr ⟨h,op.keys_eq ▸ hpre⟩⟩

theorem exists_first_of_param {id : Nat} {name : String} {type : TypeRef}
    (hs : (build ops).segmentOf id = .param name type) :
    ∃ before op after j raw, ops = before ++ op :: after ∧
      (build ops).LeadsThrough op.path id ∧
      (∀ o ∈ before, ¬ (build ops).LeadsThrough o.path id) ∧ (build ops).depth id = j + 1 ∧
      (Template.segments op.path)[j]? = some raw ∧
      Template.wholePlaceholder? raw = some name ∧ type = op.typeAt j := by
  have h : id < (build ops).nodes.length := by
    by_contra hle
    rw [segmentOf, List.getElem?_eq_none (Nat.le_of_not_lt hle)] at hs
    simp at hs
  have hne : id ≠ root := by
    intro he
    simp [(segmentOf_eq_root h).mpr he] at hs
  obtain ⟨before,op,after,j,hops,hj,hk,hbefore⟩ := exists_first h hne
  have hlt := (List.getElem?_eq_some_iff.mp hj).1
  rw [hs, Operation.getElem?_segments, Option.map_eq_some_iff] at hj
  obtain ⟨raw,hraw,hmade⟩ := hj
  refine ⟨before,op,after,j,raw,hops,leadsThrough_iff.mpr ⟨h,?_⟩,fun o ho hleads => ?_,?_,hraw,?_⟩
  · rw [hk, ← op.keys_eq]
    exact List.take_prefix _ _
  · have hpre := (leadsThrough_iff.mp hleads).2
    exact hbefore o ho (o.keys_eq ▸ hpre)
  · rw [depth, hk, List.length_take, Operation.keys, List.length_map]
    exact Nat.min_eq_left hlt
  · cases hw : Template.wholePlaceholder? raw with
    | none => simp [hw] at hmade
    | some name' =>
      simp only [hw, Segment.param.injEq] at hmade
      exact ⟨congrArg some hmade.1,hmade.2.symm⟩

/-- The tree that is built of operations represents them, and later operations leave the nodes that
are there as they are. -/
theorem represents_build (ops : List Operation) : Represents (build ops) ops ∧
    ∀ later, ∀ id < (build ops).nodes.length,
      (build (ops ++ later)).keysOf id = (build ops).keysOf id ∧
        (build (ops ++ later)).segmentOf id = (build ops).segmentOf id := by
  refine ⟨?_,fun later id hid => ⟨keysOf_append hid later,segmentOf_append hid later⟩⟩
  exact {
    root_lt := root_lt ops
    segmentOf_root := (segmentOf_eq_root (root_lt ops)).mpr rfl
    depth_root := by rw [depth, keysOf_root]; rfl
    parent?_eq_none := fun _ hid => parent?_eq_none_iff hid
    child := by
      intro id hid hne
      obtain ⟨p,hlt,hp,hkeys⟩ := exists_parent hid hne
      have hdepth : (build ops).depth id = (build ops).depth p + 1 := by
        rw [depth, depth, keysOf_eq_dropLast_append hid hne, ← hkeys, List.length_append,
          List.length_singleton]
      refine ⟨p,hlt,hp,hdepth,mt (segmentOf_eq_root hid).mp hne,fun q hq key => ?_⟩
      exact get?_children_eq_iff hid hne (Nat.lt_trans hlt hid) hkeys hq
    siblings := fun _ hid _ hid' hne hne' => eq_of_parent?_eq hid hid' hne hne'
    literal_ne := fun _ _ => literal_ne_paramKey
    placed := fun _ _ => exists_placed
    listed_lt := by
      intro q k hk
      obtain ⟨_,op,hop,_⟩ := mem_operationsAt.mp hk
      exact (List.getElem?_eq_some_iff.mp hop).1
    listed_increasing := operationsAt_increasing ops
    together := fun _ _ _ _ => together_iff
    passed := fun _ => exists_passing
    param := fun _ _ _ => exists_first_of_param }

/-- Without operations there still is a root, which is on no way. -/
theorem emptyTree_has_root : ¬ ∀ id < (build []).nodes.length,
    ∃ op ∈ ([] : List Operation), (build []).LeadsThrough op.path id := by
  intro h
  obtain ⟨_,hop,_⟩ := h root (root_lt [])
  cases hop

end ClientGen.RouteTree
