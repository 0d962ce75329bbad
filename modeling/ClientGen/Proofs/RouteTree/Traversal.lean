import ClientGen.Proofs.RouteTree.Shape
import ClientGen.Proofs.RouteTree.Walk
import ClientGen.Proofs.Text.Utf8
import Mathlib.Data.List.Sort
import Mathlib.Logic.Relation

/-! # Traversals of a route tree

A walk is what a stack of nodes still to be visited gives: it ends, and it comes to all nodes below
its start in the order of their keys. Keys lead down to a node by the same nodes that a climb from
it by parents meets, so a walk from the root depends on the keys of the operations alone.
-/
namespace ClientGen.RouteTree
variable {ops : List Operation}

/-- One step down. -/
def HasChild (t : RouteTree) (parent child : Nat) : Prop :=
  child ∈ (t.children parent).values

/-- Keys compared one by one, each by its bytes; what goes on from keys comes after them. -/
def KeysBefore (ks ls : List String) : Prop :=
  ks.map Config.utf8 < ls.map Config.utf8

/-- A stack is worked off: the node on top is visited and its children take its place. -/
inductive Visits (t : RouteTree) : List Nat → List Nat → Prop
  | done : Visits t [] []
  | visit (id : Nat) {stack order : List Nat}
    (h : Visits t ((t.children id).values ++ stack) order) : Visits t (id :: stack) (id :: order)

/-- The nodes met on the way up from a node to the root, the last one first. -/
inductive Climbs (t : RouteTree) : Nat → List Nat → Prop
  | root : Climbs t root []
  | up {id parent : Nat} {above : List Nat} (hp : t.parent? id = some parent)
    (h : Climbs t parent above) : Climbs t id (above ++ [id])

/-! ## Nodes below a node -/

theorem lt_of_mem_children {id child : Nat} (hid : id < (build ops).nodes.length)
    (h : child ∈ ((build ops).children id).values) :
    id < child ∧ child < (build ops).nodes.length := by
  obtain ⟨hlt,key,hkeys⟩ := keysOf_of_mem_children h
  have hne : child ≠ root := by
    rintro rfl
    simp [keysOf_root] at hkeys
  obtain ⟨p,hp,_,hpkeys⟩ := exists_parent hlt hne
  rw [hkeys, List.dropLast_concat] at hpkeys
  rw [← eq_of_keysOf_eq (Nat.lt_trans hp hlt) hid hpkeys]
  exact ⟨hp,hlt⟩

/-- Children have larger ids, so as much fuel as there are ids to come is enough. -/
theorem walkAt_eq_walkAt {fuel fuel' id : Nat} (hid : id < (build ops).nodes.length)
    (h : (build ops).nodes.length ≤ id + fuel) (h' : (build ops).nodes.length ≤ id + fuel') :
    (build ops).walkAt fuel id = (build ops).walkAt fuel' id := by
  induction fuel generalizing fuel' id with
  | zero => omega
  | succ fuel ih =>
    cases fuel' with
    | zero => omega
    | succ fuel' =>
      rw [walkAt, walkAt]
      refine congrArg (id :: ·) (List.flatMap_congr fun child hchild => ?_)
      obtain ⟨hlt,hchild⟩ := lt_of_mem_children hid hchild
      exact ih hchild (by omega) (by omega)

/-- A walk visits its start and then walks from each child. -/
theorem walk_eq {id : Nat} (hid : id < (build ops).nodes.length) :
    (build ops).walk id = id :: ((build ops).children id).values.flatMap (build ops).walk := by
  obtain ⟨fuel,hfuel⟩ := Nat.exists_eq_succ_of_ne_zero (Nat.ne_zero_of_lt hid)
  have hunfold : (build ops).walk id =
      id :: ((build ops).children id).values.flatMap ((build ops).walkAt fuel) := by
    rw [walk, hfuel, walkAt]
  rw [hunfold]
  refine congrArg (id :: ·) (List.flatMap_congr fun child hchild => ?_)
  obtain ⟨hlt,hchild⟩ := lt_of_mem_children hid hchild
  exact walkAt_eq_walkAt hchild (by omega) (by omega)

theorem reaches_of_mem_walkAt {t : RouteTree} {fuel start id : Nat}
    (h : id ∈ t.walkAt fuel start) : Relation.ReflTransGen t.HasChild start id := by
  induction fuel generalizing start with
  | zero => exact absurd h List.not_mem_nil
  | succ fuel ih =>
    rcases List.mem_cons.mp h with rfl | h
    · exact .refl
    · obtain ⟨child,hchild,hid⟩ := List.mem_flatMap.mp h
      exact .head hchild (ih hid)

/-- A walk comes to exactly those nodes that steps down lead to. -/
theorem mem_walk_iff {start id : Nat} (hs : start < (build ops).nodes.length) :
    id ∈ (build ops).walk start ↔ Relation.ReflTransGen (build ops).HasChild start id := by
  constructor
  · exact reaches_of_mem_walkAt
  · intro h
    induction h using Relation.ReflTransGen.head_induction_on with
    | refl =>
      rw [walk_eq hs]
      exact List.mem_cons_self
    | head hchild _ ih =>
      rw [walk_eq hs]
      have hlt := (lt_of_mem_children hs hchild).2
      exact List.mem_cons_of_mem _ (List.mem_flatMap.mpr ⟨_,hchild,ih hlt⟩)

theorem hasChild_parent {id p : Nat} (h : id < (build ops).nodes.length) (hne : id ≠ root)
    (hp : (build ops).keysOf p = ((build ops).keysOf id).dropLast) : (build ops).HasChild p id := by
  refine Dict.mem_values_iff.mpr ⟨((build ops).segmentOf id).key,get?_children.mpr ⟨h,?_⟩⟩
  rw [hp]
  exact keysOf_eq_dropLast_append h hne

/-- All nodes whose keys go on from those of the start are below it. -/
theorem mem_walk_of_below {start id : Nat} (hs : start < (build ops).nodes.length)
    (hid : id < (build ops).nodes.length)
    (h : (build ops).keysOf start <+: (build ops).keysOf id) : id ∈ (build ops).walk start := by
  rw [mem_walk_iff hs]
  induction id using Nat.strong_induction_on with
  | h id ih =>
    by_cases he : id = start
    · exact he ▸ .refl
    · have hne : id ≠ root := by
        rintro rfl
        rw [keysOf_root, List.prefix_nil] at h
        exact he ((keysOf_eq_nil hs).mp h).symm
      obtain ⟨p,hp,_,hkeys⟩ := exists_parent hid hne
      have hplt := Nat.lt_trans hp hid
      have habove : (build ops).keysOf start <+: (build ops).keysOf p := by
        rw [hkeys]
        rw [keysOf_eq_dropLast_append hid hne] at h
        rcases List.prefix_concat_iff.mp h with heq | hpre
        · rw [← keysOf_eq_dropLast_append hid hne] at heq
          exact absurd (eq_of_keysOf_eq hid hs heq.symm) he
        · exact hpre
      exact (ih p hp hplt habove).tail (hasChild_parent hid hne hkeys)

/-! ## Order -/

theorem KeysBefore.trans {ks ls ms : List String} (h : KeysBefore ks ls) (h' : KeysBefore ls ms) :
    KeysBefore ks ms :=
  List.lt_trans h h'

theorem KeysBefore.irrefl (ks : List String) : ¬ KeysBefore ks ks :=
  List.lt_irrefl _

theorem keysBefore_append_cons (ks : List String) (k : String) (rest : List String) :
    KeysBefore ks (ks ++ k :: rest) := by
  rw [KeysBefore, List.map_append]
  conv_lhs => rw [← List.append_nil (ks.map Config.utf8)]
  exact List.append_left_lt (List.nil_lt_cons _ _)

/-- The first keys that differ decide, whatever follows. -/
theorem keysBefore_of_lt {k l : String} (h : k < l) {ks as bs : List String}
    (ha : ks ++ [k] <+: as) (hb : ks ++ [l] <+: bs) : KeysBefore as bs := by
  obtain ⟨as,rfl⟩ := ha
  obtain ⟨bs,rfl⟩ := hb
  simp only [KeysBefore, List.map_append, List.append_assoc, List.map_cons, List.singleton_append]
  exact List.append_left_lt (List.cons_lt_cons_iff.mpr (.inl (Config.lt_iff_utf8_lt.mp h)))

/-- Children stand in the order of their last keys. -/
theorem pairwise_children (id : Nat) :
    ((build ops).children id).values.Pairwise fun a b => ∃ k l, k < l ∧
      (build ops).keysOf a = (build ops).keysOf id ++ [k] ∧
      (build ops).keysOf b = (build ops).keysOf id ++ [l] := by
  refine List.pairwise_map.mpr (((build ops).children id).increasing.imp_of_mem ?_)
  intro a b ha hb hlt
  have hkeysa := (get?_children.mp (Dict.get?_eq_some_iff.mpr ha)).2
  have hkeysb := (get?_children.mp (Dict.get?_eq_some_iff.mpr hb)).2
  exact ⟨a.1,b.1,hlt,hkeysa,hkeysb⟩

theorem increasing_walkAt {fuel start : Nat} (hs : start < (build ops).nodes.length) :
    ((build ops).walkAt fuel start).Pairwise fun a b =>
      KeysBefore ((build ops).keysOf a) ((build ops).keysOf b) := by
  induction fuel generalizing start with
  | zero => exact .nil
  | succ fuel ih =>
    have hlt : ∀ child ∈ ((build ops).children start).values,
        child < (build ops).nodes.length := fun child hchild => (lt_of_mem_children hs hchild).2
    refine List.pairwise_cons.mpr ⟨fun id hid => ?_,?_⟩
    · obtain ⟨child,hchild,hid⟩ := List.mem_flatMap.mp hid
      obtain ⟨_,key,hkeys⟩ := keysOf_of_mem_children hchild
      obtain ⟨rest,hrest⟩ := (prefix_of_mem_walkAt (hlt child hchild) hid).2
      rw [← hrest, hkeys, List.append_assoc]
      exact keysBefore_append_cons _ key rest
    · refine List.pairwise_flatMap.mpr ⟨fun child hchild => ih (hlt child hchild),?_⟩
      refine (pairwise_children start).imp_of_mem ?_
      rintro a b ha hb ⟨k,l,hkl,hkeysa,hkeysb⟩ x hx y hy
      have hprex := (prefix_of_mem_walkAt (hlt a ha) hx).2
      have hprey := (prefix_of_mem_walkAt (hlt b hb) hy).2
      exact keysBefore_of_lt hkl (hkeysa ▸ hprex) (hkeysb ▸ hprey)

theorem increasing_walk {start : Nat} (hs : start < (build ops).nodes.length) :
    ((build ops).walk start).Pairwise fun a b =>
      KeysBefore ((build ops).keysOf a) ((build ops).keysOf b) :=
  increasing_walkAt hs

theorem keysBefore_of_hasChild {id child : Nat} (h : (build ops).HasChild id child) :
    KeysBefore ((build ops).keysOf id) ((build ops).keysOf child) := by
  obtain ⟨_,key,hkeys⟩ := keysOf_of_mem_children h
  rw [hkeys]
  exact keysBefore_append_cons _ key []

section
variable {start : Nat} (hs : start < (build ops).nodes.length) {before after : List Nat}
include hs

/-- What lies below a node is visited after it. -/
theorem mem_after_of_hasChild {id : Nat} (hsplit : (build ops).walk start = before ++ id :: after)
    {child : Nat} (h : (build ops).HasChild id child) : child ∈ after := by
  have hid : id ∈ (build ops).walk start := by
    rw [hsplit]
    exact List.mem_append_right _ List.mem_cons_self
  have hchild : child ∈ (build ops).walk start :=
    (mem_walk_iff hs).mpr (((mem_walk_iff hs).mp hid).tail h)
  have hordered := increasing_walk hs
  rw [hsplit] at hchild hordered
  rcases List.mem_append.mp hchild with hbefore | hchild
  · have hearlier := (List.pairwise_append.mp hordered).2.2 child hbefore id List.mem_cons_self
    exact absurd ((keysBefore_of_hasChild h).trans hearlier) (KeysBefore.irrefl _)
  · rcases List.mem_cons.mp hchild with rfl | hafter
    · exact absurd (keysBefore_of_hasChild h) (KeysBefore.irrefl _)
    · exact hafter

/-- A node that a walk comes to has been visited before its children. -/
theorem mem_before_of_hasChild {child : Nat}
    (hsplit : (build ops).walk start = before ++ child :: after) {id : Nat}
    (hid : id ∈ (build ops).walk start) (h : (build ops).HasChild id child) : id ∈ before := by
  have hordered := increasing_walk hs
  rw [hsplit] at hid hordered
  rcases List.mem_append.mp hid with hbefore | hid
  · exact hbefore
  · rcases List.mem_cons.mp hid with rfl | hafter
    · exact absurd (keysBefore_of_hasChild h) (KeysBefore.irrefl _)
    · have hlater := (List.pairwise_cons.mp (List.pairwise_append.mp hordered).2.1).1 id hafter
      exact absurd ((keysBefore_of_hasChild h).trans hlater) (KeysBefore.irrefl _)

end

/-! ## The stack -/

theorem Visits.append_walkAt {fuel id : Nat} (hid : id < (build ops).nodes.length)
    (hfuel : (build ops).nodes.length ≤ id + fuel) {stack order : List Nat}
    (h : Visits (build ops) stack order) :
    Visits (build ops) (id :: stack) ((build ops).walkAt fuel id ++ order) := by
  induction fuel generalizing id stack order with
  | zero => omega
  | succ fuel ih =>
    rw [walkAt, List.cons_append]
    refine .visit id ?_
    have hchildren : ∀ child ∈ ((build ops).children id).values,
        id < child ∧ child < (build ops).nodes.length := fun _ => lt_of_mem_children hid
    -- the children are worked off one after the other, the last one first put back
    generalize ((build ops).children id).values = children at hchildren
    induction children with
    | nil => exact h
    | cons child rest ihrest =>
      obtain ⟨hlt,hchild⟩ := hchildren child List.mem_cons_self
      rw [List.flatMap_cons, List.append_assoc]
      exact ih hchild (by omega) (ihrest fun c hc => hchildren c (List.mem_cons_of_mem _ hc))

theorem visits_walk {start : Nat} (hs : start < (build ops).nodes.length) :
    Visits (build ops) [start] ((build ops).walk start) := by
  have h := Visits.append_walkAt hs (Nat.le_add_left _ start) .done
  rwa [List.append_nil] at h

/-! ## Climbing and going down -/

theorem lineage_root : (build ops).lineage root = [] := by
  rw [lineage, keysOf_root]
  rfl

/-- The lineage of a child is that of its parent and the child. -/
theorem lineage_child {parent child : Nat} {key : String} (h : child < (build ops).nodes.length)
    (hkeys : (build ops).keysOf child = (build ops).keysOf parent ++ [key]) :
    (build ops).lineage child = (build ops).lineage parent ++ [child] := by
  have hdepth : (build ops).depth child = (build ops).depth parent + 1 := by
    rw [depth, depth, hkeys, List.length_append, List.length_singleton]
  refine List.ext_getElem? fun j => ?_
  rcases Nat.lt_trichotomy j ((build ops).depth parent) with hj | rfl | hj
  · have htake : ((build ops).keysOf child).take (j + 1) =
        ((build ops).keysOf parent).take (j + 1) := by
      rw [hkeys, List.take_append_of_le_length hj]
    rw [List.getElem?_append_left (by rwa [length_lineage]), getElem?_lineage hj,
      getElem?_lineage (by omega), htake]
  · have htake : ((build ops).keysOf child).take ((build ops).depth parent + 1) =
        (build ops).keysOf child := by
      rw [← hdepth, depth, List.take_length]
    rw [getElem?_lineage (by omega), htake, find?_iff.mpr ⟨h,rfl⟩, ← length_lineage,
      List.getElem?_concat_length]
  · rw [List.getElem?_eq_none (by rw [length_lineage]; omega),
      List.getElem?_eq_none (by rw [List.length_append, length_lineage, List.length_singleton]; omega)]

/-- Parents first: what holds of the root and passes on to children holds of all nodes. -/
theorem parent_induction {motive : Nat → Prop} (top : motive root)
    (child : ∀ p id, id < (build ops).nodes.length → (build ops).parent? id = some p →
      (build ops).keysOf id =
        (build ops).keysOf p ++ [((build ops).segmentOf id).key] → motive p → motive id)
    {id : Nat} (h : id < (build ops).nodes.length) : motive id := by
  induction id using Nat.strong_induction_on with
  | h id ih =>
    by_cases hne : id = root
    · exact hne ▸ top
    · obtain ⟨p,hp,hparent,hkeys⟩ := exists_parent h hne
      refine child p id h hparent ?_ (ih p hp (Nat.lt_trans hp h))
      rw [hkeys]
      exact keysOf_eq_dropLast_append h hne

theorem climbs_lineage {id : Nat} (h : id < (build ops).nodes.length) :
    Climbs (build ops) id ((build ops).lineage id) := by
  refine parent_induction (motive := fun id => Climbs (build ops) id ((build ops).lineage id))
    ?_ (fun p id hlt hparent hkeys ih => ?_) h
  · rw [lineage_root]
    exact .root
  · rw [lineage_child hlt hkeys]
    exact .up hparent ih

/-- The keys of a node are those of the segments on the way to it. -/
theorem keysOf_eq_map_lineage {id : Nat} (h : id < (build ops).nodes.length) :
    (build ops).keysOf id =
      ((build ops).lineage id).map fun n => ((build ops).segmentOf n).key := by
  refine parent_induction (motive := fun id => (build ops).keysOf id =
      ((build ops).lineage id).map fun n => ((build ops).segmentOf n).key)
    ?_ (fun p id hlt _ hkeys ih => ?_) h
  · rw [keysOf_root, lineage_root, List.map_nil]
  · rw [lineage_child hlt hkeys, List.map_append, ← ih, hkeys, List.map_singleton]

/-! ## Key paths -/

/-- A walk from the root comes to the beginnings of the operations' keys. -/
theorem mem_keys_walk {ks : List String} :
    ks ∈ ((build ops).walk root).map (build ops).keysOf ↔
      ks = [] ∨ ∃ op ∈ ops, ks <+: pathKeys op.path := by
  have hnodes : ks ∈ ((build ops).walk root).map (build ops).keysOf ↔
      ks ∈ (build ops).nodes.map (·.keys) := by
    constructor
    · intro h
      obtain ⟨id,hid,rfl⟩ := List.mem_map.mp h
      exact keysOf_mem (prefix_of_mem_walk (root_lt ops) hid).1
    · intro h
      obtain ⟨id,hid⟩ := exists_find? h
      obtain ⟨hlt,rfl⟩ := find?_iff.mp hid
      refine List.mem_map_of_mem (mem_walk_of_below (root_lt ops) hlt ?_)
      rw [keysOf_root]
      exact List.nil_prefix
  simp only [hnodes, mem_keys_build, Operation.keys_eq]

theorem eq_of_increasing {xs ys : List (List String)} (hx : xs.Pairwise KeysBefore)
    (hy : ys.Pairwise KeysBefore) (h : ∀ ks, ks ∈ xs ↔ ks ∈ ys) : xs = ys := by
  have hirrefl : Std.Irrefl KeysBefore := ⟨KeysBefore.irrefl⟩
  have hantisymm : Std.Antisymm KeysBefore :=
    ⟨fun a b hab hba => absurd (hab.trans hba) (KeysBefore.irrefl _)⟩
  exact hx.eq_of_mem_iff hy h

/-! ## The tree as a whole -/

/-- The three ways through `t`, the tree of `ops`: walks, climbs to the root and keys from the root
down. -/
structure Traversed (t : RouteTree) (ops : List Operation) : Prop where
  worked_off : ∀ start < t.nodes.length, Visits t [start] (t.walk start)
  visited : ∀ start < t.nodes.length, ∀ id,
    id ∈ t.walk start ↔ Relation.ReflTransGen t.HasChild start id
  once : ∀ start < t.nodes.length, (t.walk start).Nodup
  children_after : ∀ start < t.nodes.length, ∀ before id after,
    t.walk start = before ++ id :: after → ∀ child, t.HasChild id child → child ∈ after
  increasing : ∀ start < t.nodes.length,
    ((t.walk start).map t.keysOf).Pairwise KeysBefore
  /-- From the root, the beginnings of the operations' keys are visited, and the root. -/
  key_paths : ∀ ks, ks ∈ (t.walk root).map t.keysOf ↔ ks = [] ∨ ∃ op ∈ ops, ks <+: pathKeys op.path
  climbed : ∀ id < t.nodes.length, Climbs t id (t.lineage id)
  length_lineage : ∀ id < t.nodes.length, (t.lineage id).length = t.depth id
  keysOf_eq : ∀ id < t.nodes.length,
    t.keysOf id = (t.lineage id).map fun n => (t.segmentOf n).key
  /-- Finding a node by keys is going down by them. -/
  find?_eq : ∀ ks, t.find? ks = t.descend ks
  found : ∀ id < t.nodes.length,
    t.find? ((t.lineage id).map fun n => (t.segmentOf n).key) = some id
  reordered : ∀ others, ops.Perm others →
    ((build others).walk root).map (build others).keysOf = (t.walk root).map t.keysOf

theorem map_keysOf_walk_increasing {start : Nat} (hs : start < (build ops).nodes.length) :
    (((build ops).walk start).map (build ops).keysOf).Pairwise KeysBefore :=
  List.pairwise_map.mpr (increasing_walk hs)

/-- The key paths that a walk from the root visits do not depend on the order of operations. -/
theorem map_keysOf_walk_perm {others : List Operation} (h : ops.Perm others) :
    ((build others).walk root).map (build others).keysOf =
      ((build ops).walk root).map (build ops).keysOf := by
  refine eq_of_increasing (map_keysOf_walk_increasing (root_lt others))
    (map_keysOf_walk_increasing (root_lt ops)) fun ks => ?_
  rw [mem_keys_walk, mem_keys_walk]
  simp only [h.mem_iff]

/-- Walks end and visit what is below their start in the order of keys, and climbs, keys and walks
agree. -/
theorem traversed_build (ops : List Operation) : Traversed (build ops) ops where
  worked_off := fun _ => visits_walk
  visited := fun _ hs _ => mem_walk_iff hs
  once := fun start _ => nodup_walk start
  children_after := fun _ hs _ _ _ hsplit _ => mem_after_of_hasChild hs hsplit
  increasing := fun _ => map_keysOf_walk_increasing
  key_paths := fun _ => mem_keys_walk
  climbed := fun _ => climbs_lineage
  length_lineage := fun id _ => RouteTree.length_lineage id
  keysOf_eq := fun _ => keysOf_eq_map_lineage
  find?_eq := fun ks => (descend_eq ops ks).symm
  found := by
    intro id hid
    rw [← keysOf_eq_map_lineage hid, find?_iff]
    exact ⟨hid,rfl⟩
  reordered := fun _ => map_keysOf_walk_perm

/-- Without operations a walk visits the root, though its keys begin no operation's keys. -/
theorem emptyTree_visits_root : ¬ ∀ ks, ks ∈ ((build []).walk root).map (build []).keysOf ↔
    ∃ op ∈ ([] : List Operation), ks <+: pathKeys op.path := by
  intro h
  have hroot : [] ∈ ((build []).walk root).map (build []).keysOf := by decide
  obtain ⟨_,hop,_⟩ := (h []).mp hroot
  exact absurd hop List.not_mem_nil

end ClientGen.RouteTree
