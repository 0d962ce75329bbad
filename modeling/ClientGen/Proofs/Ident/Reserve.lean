import ClientGen.Ident
import Mathlib

/-! # Names that nobody else has

Reserving hands out a name that is not in use. Among one more candidates than there are names in use
some candidate is free, so the search for a suffix always ends at a free one.
-/
namespace ClientGen.Ident

/-- The first free candidate is free, and the candidates before it are in use. -/
theorem exists_firstFree {candidate : Nat → String} (hc : Function.Injective candidate)
    (used : List String) : ∃ i, firstFree candidate used = candidate (i + 2) ∧
      candidate (i + 2) ∉ used ∧ ∀ j < i, candidate (j + 2) ∈ used := by
  let trials := (List.range (used.length + 1)).map fun i => candidate (i + 2)
  have hn : trials.Nodup := by
    refine List.nodup_range.map ?_
    intro i j h
    exact Nat.add_right_cancel (hc h)
  -- not all trials are in use: they are more than the names in use
  have hfree : ∃ i ∈ List.range (used.length + 1),
      (! used.contains (candidate (i + 2))) = true := by
    by_contra h
    push Not at h
    have hs : trials ⊆ used := List.forall_mem_map.mpr fun i hi => by simpa using h i hi
    have hl := hn.length_le_of_subset hs
    simp [trials] at hl
  obtain ⟨i,hi⟩ := Option.isSome_iff_exists.mp (List.find?_isSome.mpr hfree)
  obtain ⟨hlast,_,hbefore⟩ := List.find?_range_eq_some.mp hi
  refine ⟨i,?_,by simpa using hlast,fun j hj => by simpa using hbefore j hj⟩
  change (trials.find? (! used.contains ·)).getD _ = candidate (i + 2)
  have hfind : trials.find? (! used.contains ·) = some (candidate (i + 2)) := by
    rw [List.find?_map]
    exact congrArg (Option.map fun i => candidate (i + 2)) hi
  rw [hfind, Option.getD_some]

theorem firstFree_not_mem {candidate : Nat → String} (hc : Function.Injective candidate)
    (used : List String) : firstFree candidate used ∉ used := by
  obtain ⟨i,he,hfree,_⟩ := exists_firstFree hc used
  rw [he]
  exact hfree

theorem suffixed_injective (stem : String) :
    Function.Injective fun n : Nat => stem ++ toString n := by
  intro a b h
  exact Nat.repr_injective ((String.append_right_inj stem).mp h)

/-- A way to hand out names: never one in use, and each is in use from then on. -/
structure HandsOutFresh (give : String → List String → String × List String) : Prop where
  fresh (base : String) (used : List String) : (give base used).1 ∉ used
  keeps (base : String) (used : List String) : (give base used).2 = (give base used).1 :: used

theorem reserve_fresh : HandsOutFresh reserve where
  fresh base used := by
    simp only [reserve]
    split
    · exact firstFree_not_mem (suffixed_injective (unraw base ++ "_")) used
    · rename_i h
      simpa using h
  keeps _ _ := rfl

theorem reserveType_fresh : HandsOutFresh reserveType where
  fresh base used := by
    simp only [reserveType]
    split
    · exact firstFree_not_mem (suffixed_injective base) used
    · rename_i h
      simpa using h
  keeps _ _ := rfl

/-! ## Whole scopes -/

variable {give : String → List String → String × List String}

@[simp] theorem length_reserveAll (used bases : List String) :
    (reserveAll give used bases).length = bases.length := by
  induction bases generalizing used with
  | nil => rfl
  | cons base rest ih => simp [reserveAll, ih]

/-- Each name is handed out for a base, among some names in use. -/
theorem exists_base_of_mem {used bases : List String} {name : String}
    (h : name ∈ reserveAll give used bases) : ∃ base ∈ bases, ∃ given, name = (give base given).1 := by
  induction bases generalizing used with
  | nil => simp [reserveAll] at h
  | cons base rest ih =>
    simp only [reserveAll, List.mem_cons] at h
    rcases h with rfl | h
    · exact ⟨base,List.mem_cons_self,used,rfl⟩
    · obtain ⟨base',hbase,given,he⟩ := ih h
      exact ⟨base',List.mem_cons_of_mem _ hbase,given,he⟩

/-- What handing out keeps of each base holds of all that is handed out. -/
theorem of_mem_reserveAll {P : String → Prop}
    (hgive : ∀ base used, P base → P (give base used).1) {used bases : List String}
    (h : ∀ base ∈ bases, P base) {name : String} (hn : name ∈ reserveAll give used bases) :
    P name := by
  obtain ⟨base,hbase,given,rfl⟩ := exists_base_of_mem hn
  exact hgive base given (h base hbase)

theorem HandsOutFresh.not_mem_of_mem_reserveAll (hg : HandsOutFresh give)
    {used bases : List String} {name : String} (h : name ∈ reserveAll give used bases) :
    name ∉ used := by
  induction bases generalizing used with
  | nil => simp [reserveAll] at h
  | cons base rest ih =>
    simp only [reserveAll, List.mem_cons] at h
    rcases h with rfl | h
    · exact hg.fresh base used
    · have hn := ih h
      rw [hg.keeps] at hn
      exact fun hu => hn (List.mem_cons_of_mem _ hu)

/-- The names of one scope differ from each other. -/
theorem HandsOutFresh.nodup_reserveAll (hg : HandsOutFresh give) (used bases : List String) :
    (reserveAll give used bases).Nodup := by
  induction bases generalizing used with
  | nil => exact .nil
  | cons base rest ih =>
    simp only [reserveAll, List.nodup_cons]
    refine ⟨fun h => ?_,ih _⟩
    have hn := hg.not_mem_of_mem_reserveAll h
    rw [hg.keeps] at hn
    exact hn List.mem_cons_self

end ClientGen.Ident
