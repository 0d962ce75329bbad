import ClientGen.Proofs.Classify.Schemas
import ClientGen.Proofs.Classify.Unions
import ClientGen.Proofs.Ident.TypeNames

/-! # Names of union members

A union names its members as types are named: in letters and digits, or as a preserved name is. So a
member in the raw form has a preserved name.
-/
namespace ClientGen

theorem Ident.not_isRaw_typeName (raw : String) : ¬ Ident.IsRaw (Ident.typeName raw) :=
  not_isRaw_of_wordlike (alnum_typeName raw).wordlike

namespace Classify
variable {keep : List String}

theorem mem_of_isRaw {raw : String} (h : Ident.IsRaw (typeName keep raw)) :
    typeName keep raw ∈ keep := by
  unfold typeName at h ⊢
  split
  · rename_i hkeep
    exact List.contains_iff_mem.mp hkeep
  · rename_i hkeep
    rw [if_neg hkeep] at h
    exact absurd h (Ident.not_isRaw_typeName raw)

theorem exists_of_refName {target n : String} (h : refName keep target = .ok n) :
    ∃ raw, n = typeName keep raw := by
  simp only [refName] at h
  split at h
  · cases h
  · exact ⟨_,(Except.ok.inj h).symm⟩

/-- Whatever a type names is a type name. -/
theorem TypeNames.exists_typeName {s : Schema} {n : String} (h : TypeNames keep s n) :
    ∃ raw, n = typeName keep raw := by
  induction h with
  | ref _ hn => exact exists_of_refName hn
  | title _ _ _ => exact ⟨_,rfl⟩
  | items _ _ _ _ ih => exact ih

theorem exists_of_mem_mapM {α β ε : Type} {f : α → Except ε β} {xs : List α} {ys : List β}
    (h : xs.mapM f = .ok ys) {y : β} (hy : y ∈ ys) : ∃ x ∈ xs, f x = .ok y := by
  induction xs generalizing ys with
  | nil =>
    cases h
    cases hy
  | cons x rest ih =>
    rw [List.mapM_cons] at h
    cases hx : f x with
    | error e => simp [hx, bind, Except.bind] at h
    | ok z =>
      cases hrest : rest.mapM f with
      | error e => simp [hx, hrest, bind, Except.bind] at h
      | ok zs =>
        simp only [hx, hrest, bind, Except.bind, pure, Except.pure, Except.ok.injEq] at h
        subst h
        rcases List.mem_cons.mp hy with rfl | hy
        · exact ⟨x,List.mem_cons_self,hx⟩
        · obtain ⟨w,hw,hfw⟩ := ih hrest hy
          exact ⟨w,List.mem_cons_of_mem _ hw,hfw⟩

theorem exists_of_unionMember? {s : Schema} {n : String}
    (h : unionMember? keep s = .ok (some (.named n))) : ∃ raw, n = typeName keep raw := by
  unfold unionMember? at h
  split at h
  · rename_i target _
    cases hn : refName keep target with
    | error e => simp [hn, Except.map] at h
    | ok m =>
      simp only [hn, Except.map, Except.ok.injEq, Option.some.injEq, TypeRef.named.injEq] at h
      exact h ▸ exists_of_refName hn
  · split at h
    · cases ht : typeRef keep s with
      | error e => simp [ht, Except.map] at h
      | ok t =>
        simp only [ht, Except.map, Except.ok.injEq, Option.some.injEq] at h
        have hmem : n ∈ t.names := by simp [h, TypeRef.names]
        exact ((mem_names_typeRef ht).mp hmem).exists_typeName
    · cases h

theorem exists_of_mem_unionMembers {s : Schema} {members : List TypeRef}
    (h : unionMembers keep s = .ok members) {n : String} (hn : .named n ∈ members) :
    ∃ raw, n = typeName keep raw := by
  simp only [unionMembers] at h
  cases hall : (s.oneOf.getD []).mapM (unionMember? keep) with
  | error e => simp [hall, bind, Except.bind] at h
  | ok found =>
    simp only [hall, bind, Except.bind, pure, Except.pure, Except.ok.injEq] at h
    subst h
    obtain ⟨_,hmem,rfl⟩ := List.mem_filterMap.mp hn
    obtain ⟨_,_,hmember⟩ := exists_of_mem_mapM hall hmem
    exact exists_of_unionMember? hmember

theorem unionMembers_of_kindOf {name : String} {s : Schema} {members : List TypeRef}
    (h : (kindOf keep name s).value = .ok (some (.union members))) :
    unionMembers keep s = .ok members := by
  unfold kindOf at h
  split at h
  · cases h
  split at h
  · obtain ⟨_,hmembers,he⟩ := exists_ok_of_map h
    cases he
    exact hmembers
  split at h
  · split at h
    · cases h
    · obtain ⟨_,_,he⟩ := exists_ok_of_map h
      cases he
    · cases h
  split at h
  · obtain ⟨_,_,he⟩ := exists_ok_of_map h
    cases he
  · cases h

/-- Whatever a union lists is a type name. -/
theorem exists_of_lists {d : Document} {m : Model} (hm : m ∈ (models keep d).value) {n : String}
    (hlists : m.Lists n) : ∃ raw, n = typeName keep raw := by
  obtain ⟨members,hk,hmem⟩ := hlists
  obtain ⟨s,_,hkind⟩ := hasSource_models hm
  rw [hk] at hkind
  exact exists_of_mem_unionMembers (unionMembers_of_kindOf hkind) hmem

/-- A member of a union that is in the raw form is a preserved name. -/
theorem mem_keep_of_isRaw {d : Document} {m : Model} (hm : m ∈ (models keep d).value) {n : String}
    (hlists : m.Lists n) (hn : Ident.IsRaw n) : n ∈ keep := by
  obtain ⟨raw,rfl⟩ := exists_of_lists hm hlists
  exact mem_of_isRaw hn

end Classify
end ClientGen
