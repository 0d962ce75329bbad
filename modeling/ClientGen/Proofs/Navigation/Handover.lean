import ClientGen.Proofs.Navigation.Methods
import ClientGen.Proofs.Navigation.Plans
import ClientGen.Proofs.Navigation.Supplied

/-! # Values handed over

On the way down no value is lost: a child's struct carries what its parent's struct carries, and a
parameter adds one value of its own. The method that leads to the child fills in all fields of its
struct in order, from the same fields of the parent and the last one from its only parameter.
-/
namespace ClientGen

namespace Code

def Struct.namedFields (s : Struct) : List Field :=
  match s.body with
  | .fields fs => fs
  | _ => []

end Code

namespace Sdk.Navigation
open Code (Expr)

/-! ## What a plan and a record do with values -/

/-- A child carries what its parent carries, and a parameter adds one value under a fresh name. -/
inductive Grows (p : Plan) (parent child : Nat) : Prop
  | kept (hs : (p.tree.segmentOf child).isParam = false)
    (he : p.captured child = p.captured parent)
  | added (name : String) (type : TypeRef) (hs : p.tree.segmentOf child = .param name type)
    (own : Captured) (hnode : own.node = child) (hscalar : own.scalar = type.scalar)
    (hfresh : own.field ∉ "client" :: (p.captured parent).map (·.field))
    (he : p.captured child = p.captured parent ++ [own])

/-- A field is filled in from the same field of the struct around the method. Texts are cloned,
anything else is copied. -/
inductive TakesOver : Code.Field → String × Expr → Prop
  | cloned (f : Code.Field) (ht : f.type = .path "String") :
    TakesOver f (f.name,.method (self f.name) "clone" [])
  | copied (f : Code.Field) (ht : f.type ≠ .path "String") : TakesOver f (f.name,self f.name)

/-- A field is filled in from a parameter of its type or of one that converts into it. -/
inductive Receives : Code.Field → Code.Param → String × Expr → Prop
  | converted (f : Code.Field) (q : Code.Param) (ht : q.type = .into f.type) :
    Receives f q (f.name,.method (.path q.name) "into" [])
  | given (f : Code.Field) (q : Code.Param) (ht : q.type = f.type) :
    Receives f q (f.name,.path q.name)

/-- The values for the fields of a struct, in a method with these parameters. All fields `above` are
taken over, and at most one comes after them, from the only parameter. -/
inductive Fills (above : List Code.Field) :
    List Code.Field → List Code.Param → List (String × Expr) → Prop
  | same {values : List (String × Expr)} (h : List.Forall₂ TakesOver above values) :
    Fills above above [] values
  | more {values : List (String × Expr)} (h : List.Forall₂ TakesOver above values)
    {own : Code.Field} {q : Code.Param} {value : String × Expr} (hown : Receives own q value) :
    Fills above (above ++ [own]) [q] (values ++ [value])

/-- The method leads from one struct to another, whose record it gives with all fields in order. -/
structure Opens (above below : Code.Struct) (f : Code.Function) : Prop where
  receiver : f.receiver = some .ref
  result : f.result = some (.generic below.name [.path "'a"])
  record : ∃ values, f.body = [.result (.record below.name values)] ∧
    Fills above.namedFields below.namedFields f.params values ∧
    values.map (·.1) = below.namedFields.map (·.name)

/-! ## Captured values of a child -/

variable {p : Plan} {ops : List Operation} {parent child : Nat}

/-- Below the start, what a child captures is what its parent captures and then its own segment. -/
theorem captured_child (ht : p.tree = .build ops) (h : p.tree.HasChild parent child)
    (hstart : p.tree.keysOf p.start <+: p.tree.keysOf parent) :
    p.captured child = capture p.tree (p.captured parent) child := by
  have hline : p.tree.lineage child = p.tree.lineage parent ++ [child] := by
    rw [ht] at h ⊢
    obtain ⟨hlt,key,hkeys⟩ := RouteTree.keysOf_of_mem_children h
    exact RouteTree.lineage_child hlt hkeys
  have hdepth : p.tree.depth p.start ≤ (p.tree.lineage parent).length := by
    rw [ht] at hstart ⊢
    rw [RouteTree.length_lineage]
    exact hstart.length_le
  rw [Plan.captured, Plan.captured, below, below, hline, List.drop_append_of_le_length hdepth,
    List.foldl_append]
  rfl

theorem grows_of_captured (h : p.captured child = capture p.tree (p.captured parent) child) :
    Grows p parent child := by
  unfold capture at h
  cases hs : p.tree.segmentOf child with
  | root => exact .kept (by rw [hs]; rfl) (by rw [h, hs])
  | literal text => exact .kept (by rw [hs]; rfl) (by rw [h, hs])
  | param name type =>
    rw [hs] at h
    exact .added name type hs _ rfl rfl (Ident.reserve_fresh.fresh _ _) h

theorem not_captured_above (ht : p.tree = .build ops) (h : p.tree.HasChild parent child) :
    child ∉ (p.captured parent).map (·.node) := by
  have hnodup : ((RouteTree.build ops).lineage child).Nodup := RouteTree.nodup_lineage child
  rw [ht] at h
  obtain ⟨hlt,key,hkeys⟩ := RouteTree.keysOf_of_mem_children h
  rw [RouteTree.lineage_child hlt hkeys, List.nodup_append] at hnodup
  intro hmem
  rw [map_node_captured, ht] at hmem
  have hline := List.mem_of_mem_drop (List.mem_of_mem_filter hmem)
  exact hnodup.2.2 child hline child (List.mem_singleton_self _) rfl

theorem ownCapture?_kept (hnot : child ∉ (p.captured parent).map (·.node))
    (he : p.captured child = p.captured parent) : ownCapture? p child = none := by
  rw [ownCapture?, he, Option.filter_eq_none_iff]
  intro c hc hnode
  refine hnot (List.mem_map.mpr ⟨c,List.mem_of_getLast? hc,?_⟩)
  exact eq_of_beq hnode

theorem ownCapture?_added {own : Captured} (hnode : own.node = child)
    (he : p.captured child = p.captured parent ++ [own]) : ownCapture? p child = some own := by
  rw [ownCapture?, he, List.getLast?_concat, Option.filter_some, if_pos (by simp [hnode])]

theorem Grows.carries (h : Grows p parent child) : p.captured parent <+: p.captured child := by
  cases h with
  | kept _ he => exact he ▸ List.prefix_refl _
  | added _ _ _ _ _ _ _ he => exact he ▸ List.prefix_append _ _

section
variable {rootSegment : String}

theorem grows_of_hasChild (hparent : parent ∈ (Plan.of (.build ops) rootSegment).order)
    (h : (RouteTree.build ops).HasChild parent child) :
    Grows (.of (.build ops) rootSegment) parent child :=
  grows_of_captured (captured_child rfl h (prefix_of_mem_order hparent))

/-- What a node carries is carried in its place all the way down. -/
theorem carries_of_reaches {above id : Nat}
    (habove : above ∈ (Plan.of (.build ops) rootSegment).order)
    (h : Relation.ReflTransGen (RouteTree.build ops).HasChild above id) :
    (Plan.of (.build ops) rootSegment).captured above <+:
      (Plan.of (.build ops) rootSegment).captured id := by
  induction h with
  | refl => exact List.prefix_refl _
  | tail hreach hchild ih =>
    have hparent := mem_order_iff.mpr ((mem_order_iff.mp habove).trans hreach)
    exact ih.trans (grows_of_hasChild hparent hchild).carries

end

/-! ## Methods to children -/

theorem takesOver_passedOn (c : Captured) :
    TakesOver (privateField c.field (ownedType c.scalar)) (passedOn c) := by
  unfold passedOn
  cases hs : c.scalar with
  | text => exact .cloned (privateField c.field (.path "String")) rfl
  | _ => exact .copied (privateField c.field _) (by simp [privateField, ownedType])

theorem receives_capturing (c : Captured) : Receives (privateField c.field (ownedType c.scalar))
    (capturing c).1 (capturing c).2 := by
  unfold capturing
  cases hs : c.scalar with
  | text => exact .converted (privateField c.field (.path "String")) ⟨c.field,_⟩ rfl
  | _ => exact .given (privateField c.field _) ⟨c.field,_⟩ rfl

theorem takesOver_nodeFields (p : Plan) (paths : ModulePaths) (id : Nat) :
    List.Forall₂ TakesOver (nodeFields p paths id)
      (("client",self "client") :: (p.captured id).map passedOn) := by
  refine .cons (.copied (privateField "client" _) (by simp [privateField, clientType])) ?_
  rw [List.forall₂_map_left_iff, List.forall₂_map_right_iff, List.forall₂_same]
  exact fun c _ => takesOver_passedOn c

theorem Fills.map_fst {above fields : List Code.Field} {params : List Code.Param}
    {values : List (String × Expr)} (h : Fills above fields params values) :
    values.map (·.1) = fields.map (·.name) := by
  have htaken {fs : List Code.Field} {vs : List (String × Expr)}
      (h : List.Forall₂ TakesOver fs vs) : vs.map (·.1) = fs.map (·.name) := by
    induction h with
    | nil => rfl
    | cons hv _ ih =>
      rw [List.map_cons, List.map_cons, ih]
      cases hv <;> rfl
  cases h with
  | same h => exact htaken h
  | more h hown =>
    rw [List.map_append, List.map_append, htaken h]
    cases hown <;> rfl

theorem opens_childMethod (paths : ModulePaths) (hgrows : Grows p parent child)
    (hnot : child ∉ (p.captured parent).map (·.node)) {f : Code.Function}
    (hf : (childMethod p parent child).Renamed f) :
    Opens (nodeStruct p paths parent) (nodeStruct p paths child) f := by
  obtain ⟨name,rfl⟩ := hf
  have htaken := takesOver_nodeFields p paths parent
  have hfills : Fills (nodeFields p paths parent) (nodeFields p paths child)
      (childMethod p parent child).params (("client",self "client") ::
        (p.captured parent).map passedOn ++
          ((ownCapture? p child).map capturing).toList.map (·.2)) := by
    cases hgrows with
    | kept hs he =>
      have hfields : nodeFields p paths child = nodeFields p paths parent := by
        rw [nodeFields, he, nodeFields]
      rw [childMethod, ownCapture?_kept hnot he, hfields, Option.map_none, Option.toList_none,
        List.map_nil, List.map_nil, List.append_nil]
      exact .same htaken
    | added segment type hs own hnode hscalar hfresh he =>
      have hfields : nodeFields p paths child =
          nodeFields p paths parent ++ [privateField own.field (ownedType own.scalar)] := by
        rw [nodeFields, he, nodeFields, List.map_append, List.cons_append, List.map_singleton]
      rw [childMethod, ownCapture?_added hnode he, hfields]
      exact .more htaken (receives_capturing own)
  exact ⟨rfl,rfl,_,rfl,hfills,hfills.map_fst⟩

/-! ## The file -/

/-- What a file with these structs and implementations does with the values that the structs
carry. -/
structure CarriesValues (p : Plan) (paths : ModulePaths) (structs : Nat → Code.Struct)
    (impls : Nat → Code.Impl) (file : Code.Module) : Prop where
  laid_out : LaidOut p structs impls file
  fields : ∀ id ∈ p.order, (structs id).namedFields = nodeFields p paths id
  distinct : ∀ id ∈ p.order, ((structs id).namedFields.map (·.name)).Nodup
  /-- Below the start a node has its parent among the nodes of the plan. -/
  parent : ∀ id ∈ p.order, id ≠ p.start → ∃ parent ∈ p.order, p.tree.HasChild parent id
  grows : ∀ parent ∈ p.order, ∀ child, p.tree.HasChild parent child →
    child ∈ p.order ∧ Grows p parent child
  /-- Below a node all structs have its fields, in their places and of their types. -/
  kept : ∀ above ∈ p.order, ∀ id, Relation.ReflTransGen p.tree.HasChild above id →
    (structs above).namedFields <+: (structs id).namedFields
  opens : ∀ parent ∈ p.order, List.Forall₂ (fun child => Opens (structs parent) (structs child))
    (p.tree.children parent).values (impls parent).onward
  entry : p.start ∈ p.order ∧ p.captured p.start = [] ∧
    (structs p.start).namedFields = [privateField "client" (clientType paths)]
  /-- The start's only constructor fills in its only field. -/
  entry_new : ∃ new q value, (impls p.start).constructors = [new] ∧ new.name = "new" ∧
    new.params = [q] ∧ new.body = [.result (.record "Self" [value])] ∧
    Receives (privateField "client" (clientType paths)) q value
  only_entry_new : ∀ id ∈ p.order, id ≠ p.start → (impls id).constructors = []

theorem captured_start (ops : List Operation) (rootSegment : String) :
    (Plan.of (.build ops) rootSegment).captured (startNode (.build ops) rootSegment) = [] := by
  have hbelow : below (.build ops) (startNode (.build ops) rootSegment)
      (startNode (.build ops) rootSegment) = [] := by
    rw [below, List.drop_eq_nil_iff, RouteTree.length_lineage]
  exact congrArg (List.foldl (capture (.build ops)) []) hbelow

/-- Navigation keeps every captured value on the way down. -/
theorem carries_every_value (models : List Model) (ops : List Operation) (rootSegment : String)
    (paths : ModulePaths) :
    CarriesValues (.of (.build ops) rootSegment) paths
      (nodeStruct (.of (.build ops) rootSegment) paths)
      (nodeImpl (.of (.build ops) rootSegment) (.ofModels models (some paths.models)) paths ops)
      (moduleOf models ops rootSegment paths).value where
  laid_out := laidOut_moduleOf models ops rootSegment paths
  fields := fun _ _ => rfl
  distinct := fun id _ => nodup_nodeFields _ paths id
  parent := fun _ hid hne => RouteTree.exists_parent_of_mem_walk hid hne
  grows := fun _ hparent _ hchild =>
    ⟨child_mem_order hparent hchild,grows_of_hasChild hparent hchild⟩
  kept := by
    intro above habove id hreach
    exact List.cons_prefix_cons.mpr ⟨rfl,(carries_of_reaches habove hreach).map _⟩
  opens := by
    intro parent hparent
    refine ((List.forall₂_and_left _ _).mpr ⟨fun _ hchild => hchild,onward_nodeImpl⟩).imp ?_
    rintro child f ⟨hchild,hf⟩
    have hgrows := grows_of_hasChild hparent hchild
    exact opens_childMethod paths hgrows (not_captured_above rfl hchild) hf
  entry := by
    have hcaptured := captured_start ops rootSegment
    refine ⟨start_mem_order ops rootSegment,hcaptured,?_⟩
    show nodeFields _ paths _ = _
    rw [nodeFields]
    exact congrArg (_ :: List.map _ ·) hcaptured
  entry_new := by
    refine ⟨newMethod paths,_,_,?_,rfl,rfl,rfl,.given _ _ rfl⟩
    rw [constructors_nodeImpl]
    exact if_pos rfl
  only_entry_new := by
    intro id _ hne
    rw [constructors_nodeImpl]
    exact if_neg hne

end Sdk.Navigation
end ClientGen
