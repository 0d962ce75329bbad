import ClientGen.Proofs.RouteTree.Lineage

/-! # Walks

A walk visits a node once: what lies below one child has other keys than what lies below another.
It comes to a node from the node's parent.
-/
namespace ClientGen.RouteTree
variable {ops : List Operation}

theorem nodup_children (id : Nat) : ((build ops).children id).values.Nodup := by
  have hentries : ((build ops).children id).entries.Nodup := .of_map _ (Dict.keys_nodup _)
  refine hentries.map_on ?_
  intro a ha b hb hab
  have hkeys := (get?_children.mp (Dict.get?_eq_some_iff.mpr ha)).2
  have hkeys' := (get?_children.mp (Dict.get?_eq_some_iff.mpr hb)).2
  rw [hab, hkeys'] at hkeys
  have hlast := List.append_cancel_left hkeys
  exact Prod.ext (List.singleton_inj.mp hlast).symm hab

/-- No node lies below two children. -/
theorem eq_of_below_children {fuel fuel' id a b n : Nat} (ha : a ∈ ((build ops).children id).values)
    (hb : b ∈ ((build ops).children id).values) (hna : n ∈ (build ops).walkAt fuel a)
    (hnb : n ∈ (build ops).walkAt fuel' b) : a = b := by
  obtain ⟨hlta,key,hkeysa⟩ := keysOf_of_mem_children ha
  obtain ⟨hltb,key',hkeysb⟩ := keysOf_of_mem_children hb
  have hprea := (prefix_of_mem_walkAt hlta hna).2
  have hpreb := (prefix_of_mem_walkAt hltb hnb).2
  have hlength : ((build ops).keysOf a).length = ((build ops).keysOf b).length := by
    rw [hkeysa, hkeysb, List.length_append, List.length_append]
    rfl
  have hpre := List.prefix_of_prefix_length_le hprea hpreb (Nat.le_of_eq hlength)
  exact eq_of_keysOf_eq hlta hltb (hpre.eq_of_length hlength)

/-- A node does not lie below its children. -/
theorem not_below_child {fuel id child : Nat} (h : child ∈ ((build ops).children id).values) :
    id ∉ (build ops).walkAt fuel child := by
  intro hid
  obtain ⟨hlt,key,hkeys⟩ := keysOf_of_mem_children h
  have hlength := (prefix_of_mem_walkAt hlt hid).2.length_le
  rw [hkeys, List.length_append] at hlength
  exact absurd hlength (Nat.not_succ_le_self _)

theorem nodup_walkAt (fuel start : Nat) : ((build ops).walkAt fuel start).Nodup := by
  induction fuel generalizing start with
  | zero => exact .nil
  | succ fuel ih =>
    refine List.nodup_cons.mpr ⟨?_,List.nodup_flatMap.mpr ⟨fun child _ => ih child,?_⟩⟩
    · intro hstart
      obtain ⟨child,hchild,hbelow⟩ := List.mem_flatMap.mp hstart
      exact not_below_child hchild hbelow
    · refine (nodup_children start).imp_of_mem ?_
      intro a b ha hb hne n hna hnb
      exact hne (eq_of_below_children ha hb hna hnb)

theorem nodup_walk (start : Nat) : ((build ops).walk start).Nodup :=
  nodup_walkAt _ start

/-! ## Parents -/

theorem mem_walkAt_cases {t : RouteTree} {fuel start id : Nat} (h : id ∈ t.walkAt fuel start) :
    id = start ∨ ∃ parent ∈ t.walkAt fuel start, id ∈ (t.children parent).values := by
  induction fuel generalizing start with
  | zero => simp [walkAt] at h
  | succ fuel ih =>
    rcases List.mem_cons.mp h with rfl | h
    · exact .inl rfl
    · obtain ⟨child,hchild,hid⟩ := List.mem_flatMap.mp h
      right
      rcases ih hid with rfl | ⟨parent,hparent,hid⟩
      · exact ⟨start,List.mem_cons_self,hchild⟩
      · refine ⟨parent,List.mem_cons_of_mem _ ?_,hid⟩
        exact List.mem_flatMap.mpr ⟨child,hchild,hparent⟩

/-- A node of a walk other than its start is the child of one. -/
theorem exists_parent_of_mem_walk {t : RouteTree} {start id : Nat} (h : id ∈ t.walk start)
    (hne : id ≠ start) : ∃ parent ∈ t.walk start, id ∈ (t.children parent).values :=
  (mem_walkAt_cases h).resolve_left hne

end ClientGen.RouteTree
