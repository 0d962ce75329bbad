import ClientGen.Operation.Extract
import ClientGen.Proofs.Logged

/-! # Path parameters

An extracted operation has one path parameter for each placeholder of its path, in their order.
-/
namespace ClientGen

/-- Made by the extractor, under some settings and names given before. -/
def Operation.Extracted (op : Operation) : Prop :=
  ∃ s given e owner, op = (Extract.operation s given e owner).value

namespace Extract

/-- An operation field by field, each from the parts of the document that it depends on. -/
theorem value_operation (s : Source) (given : GivenNames) (e : Entry) (owner : Owner) :
    (operation s given e owner).value =
      { id := e.id s.naming
        method := e.method
        path := e.path
        pathParams := (pathParams s (e.id s.naming) e.path
          (parameters s e.item e.endpoint).value).value
        queryParams := (queryParams s (parameters s e.item e.endpoint).value).value
        body := e.endpoint.requestBody.bind fun body =>
          (bodyType s (e.id s.naming) body.content).value
        response := (responseType s (e.id s.naming) e.endpoint).value
        owner
        function := (functionName given (e.id s.naming) owner.package).value
        summary := e.endpoint.summary
        description := e.endpoint.description } := by
  unfold operation
  cases e.endpoint.requestBody <;> rfl

theorem map_name_pathParams (s : Source) (id path : String) (ps : List Parameter) :
    (pathParams s id path ps).value.map (·.name) = Template.placeholders path := by
  simp only [pathParams, Logged.value_bind, Logged.value_mapM, List.map_map]
  refine (List.map_congr_left fun name _ => ?_).trans (List.map_id _)
  simp only [Function.comp_apply]
  split <;> rfl

/-- Each operation is made of one of the entries. -/
theorem exists_entry_of_mem_walk (s : Source) (given : GivenNames) (es : List Entry)
    {op : Operation} (hop : op ∈ (walk s given es).value.operations) :
    ∃ e ∈ es, ∃ names owner, op = (operation s names e owner).value := by
  induction es generalizing given with
  | nil => exact absurd hop List.not_mem_nil
  | cons e rest ih =>
    unfold walk at hop
    cases howner : e.owner? s.naming with
    | none =>
      rw [howner] at hop
      obtain ⟨e',he',hmade⟩ := ih given hop
      exact ⟨e',List.mem_cons_of_mem _ he',hmade⟩
    | some owner =>
      rw [howner] at hop
      rcases List.mem_cons.mp hop with rfl | hop
      · exact ⟨e,List.mem_cons_self,given,owner,rfl⟩
      · obtain ⟨e',he',hmade⟩ := ih _ hop
        exact ⟨e',List.mem_cons_of_mem _ he',hmade⟩

theorem extracted_of_mem_walk (s : Source) (given : GivenNames) (es : List Entry) :
    ∀ op ∈ (walk s given es).value.operations, op.Extracted := by
  intro op hop
  obtain ⟨e,_,names,owner,hmade⟩ := exists_entry_of_mem_walk s given es hop
  exact ⟨s,names,e,owner,hmade⟩

/-- The operations of a document are extracted ones. -/
theorem extracted_of_mem_api (s : Source) : ∀ op ∈ (api s).value.operations, op.Extracted :=
  extracted_of_mem_walk s [] _

end Extract

theorem Operation.Extracted.map_name_pathParams {op : Operation} (h : op.Extracted) :
    op.pathParams.map (·.name) = Template.placeholders op.path := by
  obtain ⟨s,given,e,owner,rfl⟩ := h
  rw [Extract.value_operation]
  exact Extract.map_name_pathParams s _ e.path _

end ClientGen
