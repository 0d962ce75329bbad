import ClientGen.Proofs.Ident.Reserve
import ClientGen.Proofs.RouteTree.Lineage
import ClientGen.Sdk.Navigation

/-! # Captured values

The values that a struct carries are those of the parameter nodes on the way to it, in order. Each
has a field of its own, and a struct carries all that the structs above it carry.
-/
namespace ClientGen

namespace Sdk.Navigation
variable {t : RouteTree}

/-! ## Capturing along a way -/

theorem capture_cases (t : RouteTree) (cs : List Captured) (id : Nat) :
    ((t.segmentOf id).isParam = false ∧ capture t cs id = cs) ∨
      (t.segmentOf id).isParam = true ∧ ∃ c : Captured, c.node = id ∧
        c.field ∉ "client" :: cs.map (·.field) ∧ capture t cs id = cs ++ [c] := by
  unfold capture
  cases hs : t.segmentOf id with
  | root => exact .inl ⟨rfl,rfl⟩
  | literal text => exact .inl ⟨rfl,rfl⟩
  | param name type => exact .inr ⟨rfl,_,rfl,Ident.reserve_fresh.fresh _ _,rfl⟩

theorem prefix_foldl_capture (ns : List Nat) (cs : List Captured) :
    cs <+: ns.foldl (capture t) cs := by
  induction ns generalizing cs with
  | nil => exact List.prefix_refl _
  | cons n ns ih =>
    refine List.IsPrefix.trans ?_ (ih _)
    rcases capture_cases t cs n with ⟨_,he⟩ | ⟨_,c,_,_,he⟩
    · rw [he]
    · rw [he]
      exact List.prefix_append _ _

theorem map_node_foldl_capture (ns : List Nat) (cs : List Captured) :
    (ns.foldl (capture t) cs).map (·.node) =
      cs.map (·.node) ++ ns.filter fun n => (t.segmentOf n).isParam := by
  induction ns generalizing cs with
  | nil => simp
  | cons n ns ih =>
    rw [List.foldl_cons, ih]
    rcases capture_cases t cs n with ⟨hp,he⟩ | ⟨hp,c,rfl,_,he⟩
    · rw [he, List.filter_cons_of_neg (by simp [hp])]
    · have hfilter := List.filter_cons_of_pos (p := fun n => (t.segmentOf n).isParam) (l := ns) hp
      rw [he, hfilter]
      simp

theorem nodup_fields_foldl_capture (ns : List Nat) {cs : List Captured}
    (h : ("client" :: cs.map (·.field)).Nodup) :
    ("client" :: (ns.foldl (capture t) cs).map (·.field)).Nodup := by
  induction ns generalizing cs with
  | nil => exact h
  | cons n ns ih =>
    refine ih ?_
    rcases capture_cases t cs n with ⟨_,he⟩ | ⟨_,c,_,hc,he⟩
    · rw [he]
      exact h
    · rw [he, List.map_append, ← List.cons_append, List.map_singleton, List.nodup_append]
      refine ⟨h,List.nodup_singleton _,fun a ha b hb => ?_⟩
      rintro rfl
      rw [List.mem_singleton.mp hb] at ha
      exact hc ha

/-- Fields differ from each other and from the client's. -/
theorem nodup_fields (p : Plan) (id : Nat) :
    ("client" :: (p.captured id).map (·.field)).Nodup :=
  nodup_fields_foldl_capture _ (by simp)

/-! ## Structs above -/

variable {ops : List Operation} {p : Plan}

/-- Below the start, the way to a node goes on from the way to a node before it. -/
theorem below_eq (ht : p.tree = .build ops) {id j n : Nat}
    (hn : (p.tree.lineage id)[j]? = some n) (hj : p.tree.depth p.start ≤ j) :
    below p.tree p.start id =
        below p.tree p.start n ++ (p.tree.lineage id).drop (j + 1) ∧
      below p.tree p.start n =
        ((p.tree.lineage id).take j).drop (p.tree.depth p.start) ++ [n] := by
  have hlt := (List.getElem?_eq_some_iff.mp hn).1
  have hline : p.tree.lineage n = (p.tree.lineage id).take (j + 1) := by
    rw [ht] at hn ⊢
    exact RouteTree.lineage_of_getElem? hn
  have htake : (p.tree.lineage id).take (j + 1) = (p.tree.lineage id).take j ++ [n] := by
    rw [List.take_add_one, hn, Option.toList_some]
  constructor
  · rw [below, below, hline, ← List.drop_append_of_le_length, List.take_append_drop]
    rw [List.length_take]
    omega
  · rw [below, hline, htake, List.drop_append_of_le_length]
    rw [List.length_take]
    omega

/-- A parameter node on the way captures a value that all structs below it carry. -/
theorem exists_ownCapture (ht : p.tree = .build ops) {id j n : Nat}
    (hn : (p.tree.lineage id)[j]? = some n) (hj : p.tree.depth p.start ≤ j)
    (hp : (p.tree.segmentOf n).isParam = true) :
    ∃ c ∈ p.captured id, ownCapture? p n = some c ∧ c.node = n := by
  obtain ⟨hid,hown⟩ := below_eq ht hn hj
  have hcaptured : p.captured n <+: p.captured id := by
    rw [Plan.captured, Plan.captured, hid, List.foldl_append]
    exact prefix_foldl_capture _ _
  have hlast : p.captured n = capture p.tree
      ((((p.tree.lineage id).take j).drop (p.tree.depth p.start)).foldl (capture p.tree) []) n := by
    rw [Plan.captured, hown, List.foldl_append]
    rfl
  rcases capture_cases p.tree
    ((((p.tree.lineage id).take j).drop (p.tree.depth p.start)).foldl (capture p.tree) []) n with
    ⟨hnot,_⟩ | ⟨_,c,hc,_,he⟩
  · exact absurd hp (by simp [hnot])
  · rw [he] at hlast
    have hmem : c ∈ p.captured n := by
      rw [hlast]
      exact List.mem_append_right _ (List.mem_singleton_self c)
    refine ⟨c,hcaptured.subset hmem,?_,hc⟩
    rw [ownCapture?, hlast, List.getLast?_append]
    simp [hc]

theorem map_node_captured (p : Plan) (id : Nat) : (p.captured id).map (·.node) =
    (below p.tree p.start id).filter fun n => (p.tree.segmentOf n).isParam := by
  rw [Plan.captured, map_node_foldl_capture]
  rfl

/-- No node is captured twice. -/
theorem nodup_nodes (ht : p.tree = .build ops) (id : Nat) :
    ((p.captured id).map (·.node)).Nodup := by
  rw [map_node_captured, below, ht]
  exact ((RouteTree.nodup_lineage id).sublist (List.drop_sublist _ _)).filter _

end Sdk.Navigation
end ClientGen
