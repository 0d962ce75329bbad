import ClientGen.Proofs.Ident.Reserve
import ClientGen.Proofs.Logged
import ClientGen.Sdk.Navigation

/-! # Items of navigation

Each node from the start on has a struct and an implementation. The functions in it come from three
makers, and renaming them apart changes nothing but names.
-/
namespace ClientGen.Sdk.Navigation
open Code (Item)
variable {models : List Model} {ops : List Operation} {rootSegment : String} {paths : ModulePaths}

theorem mem_items {i : Item} : i ∈ (moduleOf models ops rootSegment paths).value.items ↔
    ∃ id ∈ (Plan.of (.build ops) rootSegment).order,
      i = .struct (nodeStruct (.of (.build ops) rootSegment) paths id) ∨
      i = .impl (nodeImpl (.of (.build ops) rootSegment)
        (.ofModels models (some paths.models)) paths ops id) := by
  simp [moduleOf]

variable {p : Plan} {scope : ModelScope} {id : Nat}

/-! ## Renaming -/

theorem exists_of_mem_distinctlyNamed {used : List String} {fs : List Code.Function}
    {f : Code.Function} (h : f ∈ distinctlyNamed used fs) :
    ∃ g ∈ fs, ∃ name, f = { g with name } := by
  rw [distinctlyNamed, ← List.map_uncurry_zip_eq_zipWith] at h
  obtain ⟨⟨g,name⟩,hz,rfl⟩ := List.mem_map.mp h
  exact ⟨g,(List.of_mem_zip hz).1,name,rfl⟩

theorem exists_mem_distinctlyNamed (used : List String) {fs : List Code.Function}
    {g : Code.Function} (h : g ∈ fs) : ∃ name, { g with name } ∈ distinctlyNamed used fs := by
  have hl : fs.length ≤ (Ident.reserveAll Ident.reserve used (fs.map (·.name))).length := by simp
  rw [← List.map_fst_zip hl] at h
  obtain ⟨⟨g,name⟩,hz,rfl⟩ := List.mem_map.mp h
  refine ⟨name,?_⟩
  rw [distinctlyNamed, ← List.map_uncurry_zip_eq_zipWith]
  exact List.mem_map_of_mem hz

/-! ## Members -/

/-- Where a member of an implementation comes from: the start's constructor, or under some name a
way to a child or an operation that ends at the node. -/
theorem of_mem_members {m : Code.Member} (h : m ∈ (nodeImpl p scope paths ops id).members) :
    ∃ f, m = .function f ∧ (f = newMethod paths ∨
      (∃ child ∈ (p.tree.children id).values, ∃ name, f = { childMethod p id child with name }) ∨
      ∃ i ∈ p.tree.operationsAt id, ∃ op, ops[i]? = some op ∧
        ∃ name, f = { operationMethod p scope paths id op with name }) := by
  obtain ⟨f,hf,rfl⟩ := List.mem_map.mp h
  refine ⟨f,rfl,?_⟩
  rcases List.mem_append.mp hf with hf | hf
  · split at hf
    · exact .inl (List.mem_singleton.mp hf)
    · exact absurd hf List.not_mem_nil
  · obtain ⟨g,hg,name,rfl⟩ := exists_of_mem_distinctlyNamed hf
    rcases List.mem_append.mp hg with hg | hg
    · obtain ⟨child,hchild,rfl⟩ := List.mem_map.mp hg
      exact .inr (.inl ⟨child,hchild,name,rfl⟩)
    · obtain ⟨op,hop,rfl⟩ := List.mem_map.mp hg
      obtain ⟨i,hi,hget⟩ := List.mem_filterMap.mp hop
      exact .inr (.inr ⟨i,hi,op,hget,name,rfl⟩)

theorem exists_operation_member {i : Nat} (hi : i ∈ p.tree.operationsAt id) {op : Operation}
    (hop : ops[i]? = some op) :
    ∃ name, .function { operationMethod p scope paths id op with name } ∈
      (nodeImpl p scope paths ops id).members := by
  have hmem : operationMethod p scope paths id op ∈
      (p.tree.children id).values.map (childMethod p id) ++
        ((p.tree.operationsAt id).filterMap (ops[·]?)).map (operationMethod p scope paths id) := by
    refine List.mem_append_right _ (List.mem_map_of_mem ?_)
    exact List.mem_filterMap.mpr ⟨i,hi,hop⟩
  obtain ⟨name,hname⟩ := exists_mem_distinctlyNamed
    ((if id = p.start then [newMethod paths] else []).map (·.name)) hmem
  exact ⟨name,List.mem_map_of_mem (List.mem_append_right _ hname)⟩

end ClientGen.Sdk.Navigation
