import ClientGen.Proofs.Extract.Walk
import Mathlib.Data.List.Nodup

/-! # Nothing lost, nothing twice

The endpoints of a document are divided between operations and exclusions. The naming tables alone
decide which of the two an endpoint becomes, both lists keep the order of the document, and each
exclusion is reported by one warning.
-/
namespace ClientGen.Extract
variable {n : Naming} {es : List Entry}

/-- Each entry goes to one side. -/
theorem perm_routes (n : Naming) (es : List Entry) :
    ((es.filterMap (·.credit? n)).map (·.1) ++
      (es.filterMap (·.exclusion? n)).map (·.route)).Perm (es.map (·.route)) := by
  induction es with
  | nil => exact .nil
  | cons e rest ih =>
    cases howner : e.owner? n with
    | none =>
      have hcredit : e.credit? n = none := by rw [Entry.credit?, howner]; rfl
      have hexclusion := exclusion?_eq_some.mpr ⟨howner,rfl⟩
      rw [List.filterMap_cons_none hcredit, List.filterMap_cons_some hexclusion]
      exact List.perm_middle.trans (ih.cons e.route)
    | some owner =>
      have hcredit := credit?_eq_some.mpr ⟨howner,rfl,rfl⟩
      have hexclusion : e.exclusion? n = none := by rw [Entry.exclusion?, howner]; rfl
      rw [List.filterMap_cons_some hcredit, List.filterMap_cons_none hexclusion]
      exact ih.cons e.route

theorem credits_increasing (h : es.Pairwise fun a b => a.route.Before b.route) :
    (es.filterMap (·.credit? n)).Pairwise fun a b => a.1.Before b.1 := by
  refine List.pairwise_filterMap.mpr (h.imp ?_)
  rintro a b hab ⟨r,_,_⟩ hr ⟨r',_,_⟩ hr'
  rw [← (credit?_eq_some.mp hr).2.1, ← (credit?_eq_some.mp hr').2.1]
  exact hab

theorem exclusions_increasing (h : es.Pairwise fun a b => a.route.Before b.route) :
    (es.filterMap (·.exclusion? n)).Pairwise fun a b => a.route.Before b.route := by
  refine List.pairwise_filterMap.mpr (h.imp ?_)
  intro a b hab x hx y hy
  rw [← (exclusion?_eq_some.mp hx).2, ← (exclusion?_eq_some.mp hy).2]
  exact hab

/-! ## Endpoints of a document -/

section Endpoints
variable {d : Document} {r : Route} {e : Endpoint}

theorem nodup_routes (d : Document) : ((entries d).map (·.route)).Nodup :=
  List.pairwise_map.mpr ((entries_increasing d).imp Route.Before.ne)

theorem owner?_eq_some (h : d.Declares r e) {owner : Owner} : e.owner? n r = some owner ↔
    ∃ entry ∈ entries d, entry.credit? n = some (r,e.id n r,owner) := by
  constructor
  · intro howner
    obtain ⟨entry,hentry,rfl,rfl⟩ := exists_entry_iff.mp h
    exact ⟨entry,hentry,credit?_eq_some.mpr ⟨howner,rfl,rfl⟩⟩
  · rintro ⟨entry,hentry,hcredit⟩
    obtain ⟨howner,rfl,_⟩ := credit?_eq_some.mp hcredit
    rw [h.unique (exists_entry_iff.mpr ⟨entry,hentry,rfl,rfl⟩)]
    exact howner

theorem owner?_eq_none (h : d.Declares r e) : e.owner? n r = none ↔
    ∃ entry ∈ entries d, entry.exclusion? n = some ⟨r.2,r.1,e.id n r⟩ := by
  constructor
  · intro howner
    obtain ⟨entry,hentry,rfl,rfl⟩ := exists_entry_iff.mp h
    exact ⟨entry,hentry,exclusion?_eq_some.mpr ⟨howner,rfl⟩⟩
  · rintro ⟨entry,hentry,hexclusion⟩
    obtain ⟨howner,he⟩ := exclusion?_eq_some.mp hexclusion
    obtain ⟨hmethod,hpath,_⟩ := Exclusion.mk.inj he
    have hroute : entry.route = r := Prod.ext hpath hmethod
    subst hroute
    rw [h.unique (exists_entry_iff.mpr ⟨entry,hentry,rfl,rfl⟩)]
    exact howner

end Endpoints

/-! ## The division -/

/-- Operations and exclusions divide the endpoints of a document as the naming tables say. -/
structure Partitioned (d : Document) (n : Naming) (api : Logged Api) : Prop where
  once : (api.value.operations.map (·.route) ++ api.value.excluded.map (·.route)).Nodup
  declared : ∀ r, r ∈ api.value.operations.map (·.route) ++ api.value.excluded.map (·.route) ↔
    ∃ e, d.Declares r e
  owned : ∀ r e, d.Declares r e → ∀ owner, e.owner? n r = some owner ↔
    ∃ op ∈ api.value.operations, op.route = r ∧ op.id = e.id n r ∧ op.owner = owner
  unowned : ∀ r e, d.Declares r e → (e.owner? n r = none ↔
    ⟨r.2,r.1,e.id n r⟩ ∈ api.value.excluded)
  /-- In the order of the exclusions. -/
  warned : api.warnings.filterMap Warning.exclusion? = api.value.excluded
  warnedOnce : ∀ x ∈ api.value.excluded,
    (api.warnings.filterMap Warning.exclusion?).countP (·.route == x.route) = 1
  operationsIncreasing : api.value.operations.Pairwise fun a b => a.route.Before b.route
  excludedIncreasing : api.value.excluded.Pairwise fun a b => a.route.Before b.route

theorem map_credit_api (c : Config) (d : Document) : (api (.of c d)).value.operations.map credit =
    (entries d).filterMap (·.credit? c.naming) :=
  map_credit_walk _ _ _

theorem excluded_api (c : Config) (d : Document) :
    (api (.of c d)).value.excluded = (entries d).filterMap (·.exclusion? c.naming) :=
  excluded_walk _ _ _

theorem perm_routes_api (c : Config) (d : Document) :
    ((api (.of c d)).value.operations.map (·.route) ++
      (api (.of c d)).value.excluded.map (·.route)).Perm ((entries d).map (·.route)) := by
  have hperm := perm_routes c.naming (entries d)
  rw [← map_credit_api, ← excluded_api, List.map_map] at hperm
  exact hperm

/-- No other operation is at this path with this method. -/
theorem eq_of_route_eq (c : Config) (d : Document) {op op' : Operation}
    (h : op ∈ (api (.of c d)).value.operations) (h' : op' ∈ (api (.of c d)).value.operations)
    (he : op'.route = op.route) : op' = op := by
  have hroutes := (perm_routes_api c d).nodup_iff.mpr (nodup_routes d)
  exact List.inj_on_of_nodup_map (List.nodup_append'.mp hroutes).1 h' h he

theorem partitioned_api (c : Config) (d : Document) :
    Partitioned d c.naming (api (.of c d)) := by
  have hperm := perm_routes_api c d
  have honce := hperm.nodup_iff.mpr (nodup_routes d)
  have hwarned := exclusions_warned (.of c d) [] (entries d)
  refine ⟨honce,fun r => ?_,fun r e h owner => ?_,fun r e h => ?_,hwarned,fun x hx => ?_,?_,?_⟩
  · rw [hperm.mem_iff, List.mem_map]
    constructor
    · rintro ⟨entry,hentry,rfl⟩
      exact ⟨_,exists_entry_iff.mpr ⟨entry,hentry,rfl,rfl⟩⟩
    · rintro ⟨e,h⟩
      obtain ⟨entry,hentry,hroute,_⟩ := exists_entry_iff.mp h
      exact ⟨entry,hentry,hroute⟩
  · rw [owner?_eq_some h, ← List.mem_filterMap, ← map_credit_api, List.mem_map]
    simp only [credit, Prod.mk.injEq]
  · rw [owner?_eq_none h, ← List.mem_filterMap, ← excluded_api]
  · have hroutes : ((api (.of c d)).value.excluded.map (·.route)).count x.route = 1 :=
      List.count_eq_one_of_mem (List.nodup_append'.mp honce).2.1 (List.mem_map_of_mem hx)
    rw [List.count, List.countP_map] at hroutes
    exact (congrArg _ hwarned).trans hroutes
  · have hcredits := credits_increasing (n := c.naming) (entries_increasing d)
    rw [← map_credit_api, List.pairwise_map] at hcredits
    exact hcredits
  · rw [excluded_api]
    exact exclusions_increasing (entries_increasing d)

end ClientGen.Extract
