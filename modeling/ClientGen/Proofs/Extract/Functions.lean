import ClientGen.Proofs.Extract.PathParams
import ClientGen.Proofs.Ident.Escape

/-! # Function names of packages

The walk hands out function names per package, so that a package and a function name tell the
operation.
-/
namespace ClientGen

/-- What the call of an operation names. -/
def Operation.place (op : Operation) : String × String :=
  (op.package,op.function)

namespace Extract

theorem place_operation (s : Source) (given : GivenNames) (e : Entry) (owner : Owner) :
    (operation s given e owner).value.place ∉ given ∧
      (operation s given e owner).value.package = owner.package := by
  have hfresh := Ident.reserve_fresh.fresh (Ident.bindingName (e.id s.naming))
    (usedIn given owner.package)
  rw [value_operation]
  refine ⟨fun h => hfresh (List.mem_append_left _ ?_),rfl⟩
  exact List.mem_map.mpr ⟨_,List.mem_filter.mpr ⟨h,beq_self_eq_true _⟩,rfl⟩

theorem places_walk (s : Source) (given : GivenNames) (es : List Entry) :
    ((walk s given es).value.operations.map (·.place)).Nodup ∧
      ∀ op ∈ (walk s given es).value.operations, op.place ∉ given := by
  induction es generalizing given with
  | nil => exact ⟨.nil,fun op hop => absurd hop List.not_mem_nil⟩
  | cons e rest ih =>
    unfold walk
    cases howner : e.owner? s.naming with
    | none => exact ih given
    | some owner =>
      obtain ⟨hgiven,hpackage⟩ := place_operation s given e owner
      obtain ⟨hnodup,hrest⟩ :=
        ih ((owner.package,(operation s given e owner).value.function) :: given)
      refine ⟨List.nodup_cons.mpr ⟨fun h => ?_,hnodup⟩,fun op hop => ?_⟩
      · obtain ⟨op,hop,he⟩ := List.mem_map.mp h
        refine hrest op hop (he ▸ List.mem_cons.mpr (.inl ?_))
        exact Prod.ext hpackage rfl
      · rcases List.mem_cons.mp hop with rfl | hop
        · exact hgiven
        · exact fun h => hrest op hop (List.mem_cons_of_mem _ h)

/-- No other operation of the package has this function name. -/
theorem eq_of_place_eq (s : Source) {op op' : Operation} (h : op ∈ (api s).value.operations)
    (h' : op' ∈ (api s).value.operations) (he : op'.place = op.place) : op' = op :=
  List.inj_on_of_nodup_map (places_walk s [] _).1 h' h he

end Extract

namespace Operation.Extracted
variable {op : Operation}

/-- The function's name is handed out among names that hold the ones each package uses itself. -/
theorem exists_function_eq (h : op.Extracted) : ∃ used, Extract.reservedFunctions ⊆ used ∧
    op.function = (Ident.reserve (Ident.bindingName op.id) used).1 := by
  obtain ⟨s,given,e,owner,rfl⟩ := h
  rw [Extract.value_operation]
  exact ⟨Extract.usedIn given owner.package,List.subset_append_right _ _,rfl⟩

theorem function_not_mem_reserved (h : op.Extracted) :
    op.function ∉ Extract.reservedFunctions := by
  obtain ⟨used,hused,he⟩ := h.exists_function_eq
  rw [he]
  exact fun hmem => Ident.reserve_fresh.fresh _ _ (hused hmem)

theorem escaped_function (h : op.Extracted) : Ident.Escaped op.function := by
  obtain ⟨used,_,he⟩ := h.exists_function_eq
  rw [he]
  exact (Ident.escaped_bindingName op.id).reserve used

end Operation.Extracted
end ClientGen
