import ClientGen.Model.Classify
import ClientGen.Proofs.Data.Dict

/-! # Links to unions

The table has under each name the unions that list it, once for each time that they do. A model
takes the entry of its name out of the table, so where no two models have one name, each finds what
the table had for it in the beginning.
-/
namespace ClientGen

/-- A union with a direct reference to a name among its members. -/
def Model.Lists (m : Model) (name : String) : Prop :=
  ∃ members, m.kind = .union members ∧ .named name ∈ members

namespace Classify
variable {table : Memberships} {models : List Model} {n u : String}

/-! ## The table -/

/-- The unions that a table has under a name. -/
def listing (table : Memberships) (n : String) : List String :=
  (table.get? n).getD []

theorem listing_insert (k : String) (unions : List String) :
    listing (table.insert k unions) n = if n = k then unions else listing table n := by
  unfold listing
  rw [Dict.get?_insert]
  split <;> rfl

theorem listing_erase {k : String} (h : n ≠ k) : listing (table.erase k) n = listing table n := by
  unfold listing
  rw [Dict.get?_erase, if_neg h]

theorem mem_listing_addMember {union : String} {member : TypeRef} :
    u ∈ listing (addMember union table member) n ↔
      u ∈ listing table n ∨ u = union ∧ member = .named n := by
  cases member with
  | named k =>
    have hadd : addMember union table (.named k) =
        table.insert k (listing table k ++ [union]) := rfl
    rw [hadd, listing_insert]
    by_cases h : n = k
    · simp [h]
    · simp [h, Ne.symm h]
  | _ => simp [addMember, TypeRef.directName?]

theorem mem_listing_foldl {union : String} {members : List TypeRef} :
    u ∈ listing (members.foldl (addMember union) table) n ↔
      u ∈ listing table n ∨ u = union ∧ .named n ∈ members := by
  induction members generalizing table with
  | nil => simp
  | cons member rest ih =>
    rw [List.foldl_cons, ih, mem_listing_addMember, List.mem_cons, or_assoc, ← and_or_left,
      eq_comm (a := member)]

theorem mem_listing_addMembers {m : Model} :
    u ∈ listing (addMembers table m) n ↔ u ∈ listing table n ∨ u = m.name ∧ m.Lists n := by
  unfold addMembers Model.Lists
  split
  · rename_i members hk
    rw [mem_listing_foldl]
    simp [hk]
  · rename_i hk
    have hnone : ¬ ∃ members, m.kind = .union members ∧ .named n ∈ members := by
      rintro ⟨members,hm,_⟩
      exact hk members hm
    simp [hnone]

theorem mem_listing_addAll :
    u ∈ listing (models.foldl addMembers table) n ↔
      u ∈ listing table n ∨ ∃ v ∈ models, v.name = u ∧ v.Lists n := by
  induction models generalizing table with
  | nil => simp
  | cons m rest ih =>
    rw [List.foldl_cons, ih, mem_listing_addMembers, or_assoc]
    simp only [List.mem_cons, or_and_right, exists_or, exists_eq_left, eq_comm (a := u)]

theorem mem_listing_memberships :
    u ∈ listing (memberships models) n ↔ ∃ v ∈ models, v.name = u ∧ v.Lists n := by
  unfold memberships
  rw [mem_listing_addAll]
  simp [listing]

/-! ## Taking the links -/

/-- Taking links changes nothing else in a model. -/
theorem map_takeUnions {α : Type u} {f : Model → α}
    (hf : ∀ m unions, f { m with implements := unions } = f m) :
    (takeUnions table models).map f = models.map f := by
  induction models generalizing table with
  | nil => rfl
  | cons m rest ih =>
    unfold takeUnions
    split
    · rw [List.map_cons, List.map_cons, ih, hf]
    · rw [List.map_cons, List.map_cons, ih]

/-- Models of distinct names do not take each other's links. -/
theorem takeUnions_eq_map (hnames : (models.map (·.name)).Nodup)
    (hfresh : ∀ m ∈ models, m.implements = []) :
    takeUnions table models =
      models.map fun m => { m with implements := Dict.sortedNames (listing table m.name) } := by
  induction models generalizing table with
  | nil => rfl
  | cons m rest ih =>
    obtain ⟨hfirst,hlater⟩ := List.nodup_cons.mp hnames
    obtain ⟨hm,hrest⟩ := List.forall_mem_cons.mp hfresh
    unfold takeUnions
    split
    · rename_i unions hfound
      have hlisting : listing table m.name = unions := by rw [listing, hfound, Option.getD_some]
      have hothers : ∀ v ∈ rest, listing (table.erase m.name) v.name = listing table v.name := by
        intro v hv
        apply listing_erase
        rintro he
        exact hfirst (List.mem_map.mpr ⟨v,hv,he⟩)
      rw [ih hlater hrest, List.map_cons, hlisting]
      congr 1
      apply List.map_congr_left
      intro v hv
      rw [hothers v hv]
    · rename_i hnone
      have hlisting : listing table m.name = [] := by rw [listing, hnone, Option.getD_none]
      have hsame : { m with implements := Dict.sortedNames [] } = m := by
        rw [show Dict.sortedNames [] = m.implements from hm.symm]
      rw [ih hlater hrest, List.map_cons, hlisting, hsame]

theorem map_linkUnions {α : Type u} {f : Model → α}
    (hf : ∀ m unions, f { m with implements := unions } = f m) :
    (linkUnions models).map f = models.map f :=
  map_takeUnions hf

theorem map_name_linkUnions (models : List Model) :
    (linkUnions models).map (·.name) = models.map (·.name) :=
  map_linkUnions fun _ _ => rfl

/-- A linked model is a model from before with other links. -/
theorem exists_of_mem_linkUnions {m : Model} (hm : m ∈ linkUnions models) :
    ∃ v ∈ models, { m with implements := [] } = { v with implements := [] } := by
  let bare (m : Model) : Model := { m with implements := [] }
  have hmap : (linkUnions models).map bare = models.map bare := map_linkUnions fun _ _ => rfl
  have hmem : bare m ∈ (linkUnions models).map bare := List.mem_map_of_mem hm
  rw [hmap] at hmem
  obtain ⟨v,hv,he⟩ := List.mem_map.mp hmem
  exact ⟨v,hv,he.symm⟩

/-- A model lists the unions that list it, and no others. -/
def Linked (models : List Model) : Prop :=
  ∀ m ∈ models, ∀ u, u ∈ m.implements ↔
    ∃ v ∈ models, v.name = u ∧ ∃ members, v.kind = .union members ∧ .named m.name ∈ members

theorem linkUnions_eq_map (hnames : (models.map (·.name)).Nodup)
    (hfresh : ∀ m ∈ models, m.implements = []) : linkUnions models = models.map fun m =>
      { m with implements := Dict.sortedNames (listing (memberships models) m.name) } :=
  takeUnions_eq_map hnames hfresh

theorem linkUnions_linked (hnames : (models.map (·.name)).Nodup)
    (hfresh : ∀ m ∈ models, m.implements = []) : Linked (linkUnions models) := by
  rw [linkUnions_eq_map hnames hfresh]
  intro m hm u
  obtain ⟨m',_,rfl⟩ := List.mem_map.mp hm
  rw [Dict.mem_sortedNames, mem_listing_memberships]
  constructor
  · rintro ⟨v,hv,rfl,hlists⟩
    exact ⟨_,List.mem_map_of_mem hv,rfl,hlists⟩
  · rintro ⟨v,hv,rfl,hlists⟩
    obtain ⟨v',hv',rfl⟩ := List.mem_map.mp hv
    exact ⟨v',hv',rfl,hlists⟩

/-- The links of a model increase. -/
theorem increasing_implements (hnames : (models.map (·.name)).Nodup)
    (hfresh : ∀ m ∈ models, m.implements = []) {m : Model} (hm : m ∈ linkUnions models) :
    m.implements.Pairwise (· < ·) := by
  rw [linkUnions_eq_map hnames hfresh] at hm
  obtain ⟨m',_,rfl⟩ := List.mem_map.mp hm
  exact Dict.keys_increasing _

end Classify
end ClientGen
