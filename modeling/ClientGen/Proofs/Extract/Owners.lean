import ClientGen.Operation.Extract
import ClientGen.Proofs.Data.Dict
import ClientGen.Proofs.Extract.Walk
import ClientGen.Proofs.Ident.Snake

/-! # Packages of operations

An operation belongs to the owner that the naming tables give its endpoint. Its package is one of
the table of packages or a name in snake case.
-/
namespace ClientGen

theorem Naming.snake_packageOf (n : Naming) (service : String) :
    n.packageOf service ∈ n.servicePackages.values ∨
      Ident.snake (n.packageOf service) = n.packageOf service := by
  unfold packageOf
  split
  · rename_i package hget
    exact .inl (Dict.mem_values_iff.mpr ⟨service,hget⟩)
  · right
    simp only [Ident.lowerAscii_snake, Ident.snake_snake]

namespace Extract

theorem owner_of_mem_walk (s : Source) (given : GivenNames) (es : List Entry) :
    ∀ op ∈ (walk s given es).value.operations, ∃ e ∈ es, e.owner? s.naming = some op.owner := by
  intro op hop
  have hcredit : credit op ∈ (walk s given es).value.operations.map credit :=
    List.mem_map_of_mem hop
  rw [map_credit_walk] at hcredit
  obtain ⟨e,he,hsome⟩ := List.mem_filterMap.mp hcredit
  exact ⟨e,he,(credit?_eq_some.mp hsome).1⟩

/-- A package that no table names is in snake case. -/
theorem snake_package (s : Source) {op : Operation} (h : op ∈ (api s).value.operations) :
    op.package ∈ s.naming.servicePackages.values ∨ Ident.snake op.package = op.package := by
  obtain ⟨e,_,howner⟩ := owner_of_mem_walk s [] _ op h
  obtain ⟨⟨service,rule⟩,_,he⟩ := Option.map_eq_some_iff.mp howner
  rw [Operation.package, ← he]
  exact s.naming.snake_packageOf service

end Extract
end ClientGen
