import ClientGen.Proofs.Classify.Unions
import ClientGen.Proofs.Logged
import Mathlib.Data.List.Nodup

/-! # The models of a document

No two models have one name, as a later schema with a taken name is left out. A model is linked to
exactly the unions that list it.
-/
namespace ClientGen.Classify
variable {keep : List String}

/-! ## Names -/

/-- Every model stands under its own name. -/
def KeyedByName (models : Dict Model) : Prop :=
  ∀ k m, models.get? k = some m → m.name = k

/-- A schema adds the model that it is classified as under its own name, or none. -/
theorem value_addSchema (keep : List String) (models : Dict Model) (name : String) (raw : Json) :
    (addSchema keep models name raw).value = models ∨
      ∃ (s : Schema) (m : Model), Schema.ofJson? raw = some s ∧
        (classify keep name s).value = .ok (some m) ∧ models.get? m.name = none ∧
          (addSchema keep models name raw).value = models.insert m.name m := by
  unfold addSchema
  split
  · exact .inl rfl
  · rename_i s hs
    rw [Logged.value_bind]
    split
    · exact .inl rfl
    · exact .inl rfl
    · rename_i m hm
      cases htaken : models.get? m.name with
      | none => exact .inr ⟨s,m,hs,hm,htaken,rfl⟩
      | some existing => exact .inl rfl

/-- All but the kind of a model is read off its schema's name and description. -/
theorem exists_kind_of_classify {name : String} {s : Schema} {m : Model}
    (h : (classify keep name s).value = .ok (some m)) :
    ∃ kind, (kindOf keep name s).value = .ok (some kind) ∧
      m = ⟨typeName keep name,name,s.description,kind,[]⟩ := by
  simp only [classify, Logged.value_bind, Logged.value_pure] at h
  cases hk : (kindOf keep name s).value with
  | error e => simp [hk, Except.map] at h
  | ok found =>
    simp only [hk, Except.map, Except.ok.injEq, Option.map_eq_some_iff] at h
    obtain ⟨kind,rfl,rfl⟩ := h
    exact ⟨kind,rfl,rfl⟩

/-- What holds of every model that a schema is classified as holds of those in the table. -/
theorem forall_addSchema {p : String → Model → Prop}
    (hnew : ∀ name s m, (classify keep name s).value = .ok (some m) → p m.name m)
    {models : Dict Model} (h : ∀ k m, models.get? k = some m → p k m) (name : String) (raw : Json)
    (k : String) (m : Model) (hm : (addSchema keep models name raw).value.get? k = some m) :
    p k m := by
  rcases value_addSchema keep models name raw with he | ⟨s,new,_,hclassify,_,he⟩
  · rw [he] at hm
    exact h k m hm
  · rw [he, Dict.get?_insert] at hm
    split at hm
    · rename_i hk
      rw [hk, ← Option.some.inj hm]
      exact hnew name s new hclassify
    · exact h k m hm

theorem forall_foldl {p : String → Model → Prop}
    (hnew : ∀ name s m, (classify keep name s).value = .ok (some m) → p m.name m)
    {models : Dict Model} (h : ∀ k m, models.get? k = some m → p k m)
    (schemas : List (String × Json)) : ∀ k m,
      (schemas.foldl (fun ms s => (addSchema keep ms s.1 s.2).value) models).get? k = some m →
        p k m := by
  induction schemas generalizing models with
  | nil => exact h
  | cons s rest ih => exact ih (forall_addSchema hnew h s.1 s.2)

theorem KeyedByName.map_name_values {models : Dict Model} (h : KeyedByName models) :
    models.values.map (·.name) = models.keys :=
  Dict.map_values_eq_keys h

/-! ## The models of a document -/

/-- The table of a document's models before they are linked. -/
def modelTable (keep : List String) (d : Document) : Dict Model :=
  d.schemas.entries.foldl (fun ms s => (addSchema keep ms s.1 s.2).value) .empty

theorem value_models_eq (keep : List String) (d : Document) :
    (models keep d).value = linkUnions (modelTable keep d).values := by
  simp only [models, Logged.value_bind, Logged.value_pure, Logged.value_foldlM]
  rfl

theorem map_name_modelTable (keep : List String) (d : Document) :
    (modelTable keep d).values.map (·.name) = (modelTable keep d).keys := by
  have hkeyed : KeyedByName (modelTable keep d) :=
    forall_foldl (fun _ _ _ _ => rfl) (fun _ _ hm => nomatch hm) _
  exact hkeyed.map_name_values

theorem nodup_modelTable (keep : List String) (d : Document) :
    ((modelTable keep d).values.map (·.name)).Nodup := by
  rw [map_name_modelTable]
  exact Dict.keys_nodup _

theorem implements_modelTable {d : Document} {m : Model} (hm : m ∈ (modelTable keep d).values) :
    m.implements = [] := by
  have hnew : ∀ name s m, (classify keep name s).value = .ok (some m) → m.implements = [] := by
    intro name s m hclassify
    obtain ⟨kind,_,rfl⟩ := exists_kind_of_classify hclassify
    rfl
  have hempty : ∀ k m, (Dict.empty : Dict Model).get? k = some m → m.implements = [] := by simp
  obtain ⟨k,hk⟩ := Dict.mem_values_iff.mp hm
  exact forall_foldl hnew hempty d.schemas.entries k m hk

theorem nodup_models (keep : List String) (d : Document) :
    ((models keep d).value.map (·.name)).Nodup := by
  rw [value_models_eq, map_name_linkUnions]
  exact nodup_modelTable keep d

/-- The names of models increase. -/
theorem increasing_models (keep : List String) (d : Document) :
    (models keep d).value.Pairwise fun a b => a.name < b.name := by
  have hnames : ((models keep d).value.map (·.name)).Pairwise (· < ·) := by
    rw [value_models_eq, map_name_linkUnions, map_name_modelTable]
    exact Dict.keys_increasing _
  exact List.pairwise_map.mp hnames

theorem models_linked (keep : List String) (d : Document) : Linked (models keep d).value := by
  rw [value_models_eq]
  exact linkUnions_linked (nodup_modelTable keep d) fun _ => implements_modelTable

theorem increasing_links {d : Document} {m : Model} (hm : m ∈ (models keep d).value) :
    m.implements.Pairwise (· < ·) := by
  rw [value_models_eq] at hm
  exact increasing_implements (nodup_modelTable keep d) (fun _ => implements_modelTable) hm

/-- A model has the name of a model among its links exactly if that is a union which lists it, it
has each name once, in order, and no name that is not one of a model. -/
theorem links_exact (keep : List String) (d : Document) :
    (∀ m ∈ (models keep d).value, ∀ u ∈ (models keep d).value,
      u.name ∈ m.implements ↔ u.Lists m.name) ∧
    ∀ m ∈ (models keep d).value, m.implements.Pairwise (· < ·) ∧
      ∀ n ∈ m.implements, ∃ u ∈ (models keep d).value, u.name = n := by
  have hlinked := models_linked keep d
  refine ⟨?_,?_⟩
  · intro m hm u hu
    rw [hlinked m hm]
    constructor
    · rintro ⟨v,hv,hname,hlists⟩
      -- the name stands for one model only
      have hsame : v = u := List.inj_on_of_nodup_map (nodup_models keep d) hv hu hname
      exact hsame ▸ hlists
    · intro hlists
      exact ⟨u,hu,rfl,hlists⟩
  · intro m hm
    refine ⟨increasing_links hm,?_⟩
    intro n hn
    obtain ⟨u,hu,hname,_⟩ := (hlinked m hm n).mp hn
    exact ⟨u,hu,hname⟩

/-- Unions that list a record twice, each other, themselves, and a schema that makes no model. -/
def menagerie : Document where
  paths := .empty
  components := some ⟨.ofList [
    ("Animal",.object [("oneOf",.list (["Cat","Cat","Animal","Ghost","Pet"].map reference))]),
    ("Cat",.object [("type",.text "object")]),
    ("Ghost",.text "gone"),
    ("Pet",.object [("oneOf",.list (["Animal","Cat"].map reference))]),
    ("cat",.object [("type",.text "object")])],.empty,.empty⟩
where
  reference (name : String) : Json := .object [("$ref",.text ("#/components/schemas/" ++ name))]

theorem links_exact_menagerie :
    (models [] menagerie).value.map (fun m => (m.name,m.implements)) =
      [("Animal",["Animal","Pet"]),("Cat",["Animal","Pet"]),("Pet",["Animal"])] ∧
    ∃ m ∈ (models [] menagerie).value, ∃ u ∈ (models [] menagerie).value, m.name = "Cat" ∧
      u.Lists m.name ∧ ["Animal","Pet"].Pairwise (· < ·) := by
  obtain ⟨hexact,hsorted⟩ := links_exact [] menagerie
  have hlinks : (models [] menagerie).value.map (fun m => (m.name,m.implements)) =
      [("Animal",["Animal","Pet"]),("Cat",["Animal","Pet"]),("Pet",["Animal"])] := by
    decide +kernel
  have hcat : ("Cat",["Animal","Pet"]) ∈
      (models [] menagerie).value.map fun m => (m.name,m.implements) := by simp [hlinks]
  obtain ⟨m,hm,hmcat⟩ := List.mem_map.mp hcat
  obtain ⟨hname,himplements⟩ := Prod.mk.inj hmcat
  obtain ⟨hincreasing,hmodels⟩ := hsorted m hm
  obtain ⟨u,hu,hpet⟩ := hmodels "Pet" (by simp [himplements])
  refine ⟨hlinks,m,hm,u,hu,hname,?_,himplements ▸ hincreasing⟩
  exact (hexact m hm u hu).mp (by simp [himplements, hpet])

end ClientGen.Classify
