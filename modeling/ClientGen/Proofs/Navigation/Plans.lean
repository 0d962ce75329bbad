import ClientGen.Proofs.Navigation.Scopes
import ClientGen.Proofs.Navigation.Wiring
import ClientGen.Proofs.RouteTree.Traversal

/-! # Plans

Planning goes through the nodes of the file in order: a node that has a plan gives one to each of
its children. The order comes to a node after its parent, so every node has a plan by then, and none
is planned twice or beside the file.
-/
namespace ClientGen.Sdk.Navigation
variable {ops : List Operation} {rootSegment : String}

/-- One round of planning: a node that has a plan gives one to each child that is for a segment. -/
def planRound (t : RouteTree) (planned : List Nat) (id : Nat) : List Nat :=
  if id ∈ planned then planned ++ (t.children id).values.filter (t.segmentOf · ≠ .root)
  else planned

/-- Each node from the start down has one plan, made before planning or the file asks for it. -/
structure Planned (p : Plan) : Prop where
  subtree : ∀ id, id ∈ p.order ↔ Relation.ReflTransGen p.tree.HasChild p.start id
  children : ∀ id ∈ p.order, ∀ child, p.tree.HasChild id child → child ∈ p.order
  nodup : p.order.Nodup
  one_each : (p.structs.map (·.1)).Perm p.order
  found : ∀ id ∈ p.order, p.structs.lookup id = some (p.structName id)
  rounds : p.order.foldl (planRound p.tree) [p.start] = p.structs.map (·.1)
  /-- When planning comes to a node, the rounds before have planned it. -/
  by_then : ∀ before id after, p.order = before ++ id :: after →
    id ∈ before.foldl (planRound p.tree) [p.start]

/-! ## Nodes of the file -/

theorem mem_order_iff {id : Nat} : id ∈ (Plan.of (.build ops) rootSegment).order ↔
    Relation.ReflTransGen (RouteTree.build ops).HasChild (startNode (.build ops) rootSegment) id :=
  RouteTree.mem_walk_iff (startNode_lt ops rootSegment)

theorem start_mem_order (ops : List Operation) (rootSegment : String) :
    (Plan.of (.build ops) rootSegment).start ∈ (Plan.of (.build ops) rootSegment).order :=
  mem_order_iff.mpr .refl

theorem child_mem_order {id child : Nat} (hid : id ∈ (Plan.of (.build ops) rootSegment).order)
    (h : (RouteTree.build ops).HasChild id child) :
    child ∈ (Plan.of (.build ops) rootSegment).order :=
  mem_order_iff.mpr ((mem_order_iff.mp hid).tail h)

theorem prefix_of_mem_order {id : Nat} (hid : id ∈ (Plan.of (.build ops) rootSegment).order) :
    (RouteTree.build ops).keysOf (startNode (.build ops) rootSegment) <+:
      (RouteTree.build ops).keysOf id :=
  (RouteTree.prefix_of_mem_walk (startNode_lt ops rootSegment) hid).2

/-! ## Rounds -/

theorem planRound_of_mem {planned : List Nat} {id : Nat}
    (hid : id < (RouteTree.build ops).nodes.length) (h : id ∈ planned) :
    planRound (.build ops) planned id = planned ++ ((RouteTree.build ops).children id).values := by
  rw [planRound, if_pos h]
  refine congrArg (planned ++ ·) (List.filter_eq_self.mpr fun child hchild => ?_)
  obtain ⟨hlt,hchild⟩ := RouteTree.lt_of_mem_children hid hchild
  have hne : child ≠ RouteTree.root := Nat.ne_of_gt (Nat.zero_lt_of_lt hlt)
  exact decide_eq_true (mt (RouteTree.segmentOf_eq_root hchild).mp hne)

section
variable {start : Nat} (hs : start < (RouteTree.build ops).nodes.length)
include hs

/-- A node of a walk is its start or a child of one visited before. -/
theorem planned_before {before after : List Nat} {id : Nat}
    (hsplit : (RouteTree.build ops).walk start = before ++ id :: after) :
    id ∈ start :: before.flatMap fun n => ((RouteTree.build ops).children n).values := by
  have hid : id ∈ (RouteTree.build ops).walk start := by
    rw [hsplit]
    exact List.mem_append_right _ List.mem_cons_self
  by_cases he : id = start
  · exact he ▸ List.mem_cons_self
  · obtain ⟨parent,hparent,hchild⟩ := RouteTree.exists_parent_of_mem_walk hid he
    have hbefore := RouteTree.mem_before_of_hasChild hs hsplit hparent hchild
    exact List.mem_cons_of_mem _ (List.mem_flatMap.mpr ⟨parent,hbefore,hchild⟩)

/-- The rounds up to any point have planned the start and the children of all nodes visited. -/
theorem foldl_planRound {before : List Nat} (h : before <+: (RouteTree.build ops).walk start) :
    before.foldl (planRound (.build ops)) [start] =
      start :: before.flatMap fun n => ((RouteTree.build ops).children n).values := by
  induction before using List.reverseRecOn with
  | nil => rfl
  | append_singleton before id ih =>
    obtain ⟨after,hafter⟩ := h
    rw [List.append_assoc, List.singleton_append] at hafter
    have hid : id < (RouteTree.build ops).nodes.length := by
      refine (RouteTree.prefix_of_mem_walk hs ?_).1
      rw [← hafter]
      exact List.mem_append_right _ List.mem_cons_self
    rw [List.foldl_append, ih ⟨_,hafter⟩, List.foldl_cons, List.foldl_nil,
      planRound_of_mem hid (planned_before hs hafter.symm), List.flatMap_append,
      List.flatMap_singleton, List.cons_append]

/-! ## One plan for each node -/

theorem nodup_planned : (start :: descendants (.build ops) start).Nodup := by
  have hlt : ∀ id ∈ (RouteTree.build ops).walk start, id < (RouteTree.build ops).nodes.length :=
    fun id hid => (RouteTree.prefix_of_mem_walk hs hid).1
  refine List.nodup_cons.mpr ⟨fun hstart => ?_,List.nodup_flatMap.mpr ⟨?_,?_⟩⟩
  · obtain ⟨id,hid,hchild⟩ := List.mem_flatMap.mp hstart
    obtain ⟨_,key,hkeys⟩ := RouteTree.keysOf_of_mem_children hchild
    have hlength := (RouteTree.prefix_of_mem_walk hs hid).2.length_le
    rw [hkeys, List.length_append] at hlength
    exact absurd hlength (Nat.not_succ_le_self _)
  · exact fun id _ => RouteTree.nodup_children id
  · refine (RouteTree.nodup_walk start).imp_of_mem ?_
    intro a b ha hb hne child hchilda hchildb
    obtain ⟨_,key,hkeys⟩ := RouteTree.keysOf_of_mem_children hchilda
    obtain ⟨_,key',hkeys'⟩ := RouteTree.keysOf_of_mem_children hchildb
    rw [hkeys] at hkeys'
    exact hne (RouteTree.eq_of_keysOf_eq (hlt a ha) (hlt b hb)
      (List.append_inj_left' hkeys' rfl))

theorem perm_planned :
    (start :: descendants (.build ops) start).Perm ((RouteTree.build ops).walk start) := by
  refine (List.perm_ext_iff_of_nodup (nodup_planned hs) (RouteTree.nodup_walk start)).mpr ?_
  intro id
  rw [List.mem_cons, RouteTree.mem_walk_iff hs]
  constructor
  · rintro (rfl | hid)
    · exact .refl
    · obtain ⟨parent,hparent,hchild⟩ := List.mem_flatMap.mp hid
      exact ((RouteTree.mem_walk_iff hs).mp hparent).tail hchild
  · intro hreach
    by_cases he : id = start
    · exact .inl he
    · obtain ⟨parent,hparent,hchild⟩ :=
        RouteTree.exists_parent_of_mem_walk ((RouteTree.mem_walk_iff hs).mpr hreach) he
      exact .inr (List.mem_flatMap.mpr ⟨parent,hparent,hchild⟩)

end

theorem map_fst_structsOf (t : RouteTree) (start : Nat) :
    (structsOf t start).map (·.1) = start :: descendants t start := by
  rw [structsOf_eq, List.map_cons, List.map_fst_zip (by simp [namesBelow])]

theorem lookup_structs {t : RouteTree} {id : Nat} (h : id ∈ (Plan.of t rootSegment).order) :
    (Plan.of t rootSegment).structs.lookup id = some ((Plan.of t rootSegment).structName id) := by
  have hsome := List.lookup_isSome_iff.mpr ⟨_,mem_structsOf h,beq_self_eq_true id⟩
  obtain ⟨name,hname⟩ := Option.isSome_iff_exists.mp hsome
  have hname : (Plan.of t rootSegment).structs.lookup id = some name := hname
  rw [Plan.structName, hname, Option.getD_some]

theorem planned_of (ops : List Operation) (rootSegment : String) :
    Planned (.of (.build ops) rootSegment) where
  subtree := fun _ => mem_order_iff
  children := fun _ hid _ hchild => child_mem_order hid hchild
  nodup := RouteTree.nodup_walk _
  one_each := by
    show ((structsOf _ _).map (·.1)).Perm _
    rw [map_fst_structsOf]
    exact perm_planned (startNode_lt ops rootSegment)
  found := fun _ => lookup_structs
  rounds := (foldl_planRound (startNode_lt ops rootSegment) (List.prefix_refl _)).trans
    (map_fst_structsOf _ _).symm
  by_then := by
    intro before id after hsplit
    have hstart := startNode_lt ops rootSegment
    have hrounds := foldl_planRound hstart ⟨id :: after,hsplit.symm⟩
    exact hrounds ▸ planned_before hstart hsplit

/-! ## The file -/

/-- The file consists of a struct and its implementation for each node of the plan, and the structs
have names of their own. -/
structure LaidOut (p : Plan) (structs : Nat → Code.Struct) (impls : Nat → Code.Impl)
    (file : Code.Module) : Prop where
  items : file.items = p.order.flatMap fun id => [.struct (structs id),.impl (impls id)]
  names : ∀ id ∈ p.order, (structs id).name = p.structName id
  apart : Ident.Apart (p.order.map p.structName)
  target : ∀ id ∈ p.order, (impls id).target = .generic (p.structName id) [.path "'a"]

theorem laidOut_moduleOf (models : List Model) (ops : List Operation) (rootSegment : String)
    (paths : ModulePaths) :
    LaidOut (.of (.build ops) rootSegment) (nodeStruct (.of (.build ops) rootSegment) paths)
      (nodeImpl (.of (.build ops) rootSegment) (.ofModels models (some paths.models)) paths ops)
      (moduleOf models ops rootSegment paths).value where
  items := by simp [moduleOf]
  names := fun _ _ => rfl
  apart := apart_structNames ops rootSegment
  target := fun _ _ => rfl

end ClientGen.Sdk.Navigation
