import ClientGen.Proofs.Classify.Models
import ClientGen.Proofs.Classify.Nodes

/-! # The schemas of models

Every model is made from the schema under its source name. What the type of an alias or a map names
is read off that schema: its reference, its title, or the same of its items.
-/
namespace ClientGen

/-- The type that an alias or a map stands for. -/
def ModelKind.meaning? : ModelKind → Option TypeRef
  | .alias target => some target
  | .map value => some (.map value)
  | _ => none

namespace Classify
variable {keep : List String}

/-! ## Names in types -/

/-- The type of a schema names a model, through a reference, a title, or the items of an array. -/
inductive TypeNames (keep : List String) : Schema → String → Prop
  | ref {s : Schema} {target name : String} :
    s.ref = some target → refName keep target = .ok name → TypeNames keep s name
  | title {s : Schema} {title : String} : s.ref = none → IsTitled s → s.title = some title →
    TypeNames keep s (typeName keep title)
  | items {s i : Schema} {name : String} : s.ref = none → s.primaryType? = some "array" →
    s.items = some i → TypeNames keep i name → TypeNames keep s name

theorem typeNames_of_ref {s : Schema} {target n : String} (hr : s.ref = some target) :
    TypeNames keep s n ↔ refName keep target = .ok n := by
  constructor
  · intro h
    cases h with
    | ref h hn => rwa [← Option.some.inj (h.symm.trans hr)]
    | title h => simp [hr] at h
    | items h => simp [hr] at h
  · exact .ref hr

theorem typeNames_of_titled {s : Schema} {n : String} (hr : s.ref = none) (ht : IsTitled s) :
    TypeNames keep s n ↔ ∃ title, s.title = some title ∧ typeName keep title = n := by
  constructor
  · intro h
    cases h with
    | ref h => simp [hr] at h
    | title _ _ h => exact ⟨_,h,rfl⟩
    | items _ h => rcases ht with ht | ⟨ht,_⟩ <;> simp [ht] at h
  · rintro ⟨title,h,rfl⟩
    exact .title hr ht h

theorem typeNames_of_array {s : Schema} {n : String} (hr : s.ref = none)
    (ha : s.primaryType? = some "array") :
    TypeNames keep s n ↔ ∃ i, s.items = some i ∧ TypeNames keep i n := by
  constructor
  · intro h
    cases h with
    | ref h => simp [hr] at h
    | title _ h => simp [IsTitled, ha] at h
    | items _ _ hi h => exact ⟨_,hi,h⟩
  · rintro ⟨i,hi,h⟩
    exact .items hr ha hi h

theorem not_typeNames {s : Schema} {n : String} (hr : s.ref = none) (ht : ¬ IsTitled s)
    (ha : s.primaryType? ≠ some "array") : ¬ TypeNames keep s n := by
  intro h
  cases h with
  | ref h => simp [hr] at h
  | title _ h => exact ht h
  | items _ h => exact ha h

theorem exists_ok_of_map {α β ε : Type} {x : Except ε α} {f : α → β} {b : β}
    (h : x.map f = .ok b) : ∃ a, x = .ok a ∧ f a = b := by
  cases x with
  | error e => cases h
  | ok a => exact ⟨a,rfl,Except.ok.inj h⟩

theorem OwnType.mem_names_iff {s : Schema} {t : TypeRef} (h : OwnType keep s t)
    (harray : ¬ IsArray s) {n : String} : n ∈ t.names ↔ TypeNames keep s n := by
  cases h with
  | ref hr hname =>
    rw [typeNames_of_ref hr, hname]
    simp [TypeRef.names, eq_comm]
  | title hr htitled htitle =>
    rw [typeNames_of_titled hr htitled, htitle]
    simp [TypeRef.names, eq_comm]
  | declared hr hnone hstands =>
    have hnames : t.names = [] := by cases hstands <;> rfl
    by_cases htitled : IsTitled s
    · rw [typeNames_of_titled hr htitled, hnone htitled]
      simp [hnames]
    · simp [hnames, not_typeNames hr htitled fun ha => harray ⟨hr,ha⟩]

theorem mem_names_nodeType {s : Schema} {item : Except TypeError TypeRef} {n : String}
    (hitem : ∀ u, item = .ok u → (n ∈ u.names ↔ ∃ i, s.items = some i ∧ TypeNames keep i n))
    {t : TypeRef} (h : nodeType keep s item = .ok t) : n ∈ t.names ↔ TypeNames keep s n := by
  cases hr : s.ref with
  | some target =>
    rw [nodeType_of_ref hr] at h
    obtain ⟨name,hname,rfl⟩ := exists_ok_of_map h
    rw [typeNames_of_ref hr, hname]
    simp [TypeRef.names, eq_comm]
  | none =>
    by_cases harray : IsArray s
    · rw [nodeType_of_isArray harray] at h
      obtain ⟨u,hu,rfl⟩ := exists_ok_of_map h
      rw [typeNames_of_array hr harray.2]
      exact hitem u hu
    · obtain ⟨u,hu,hown⟩ := exists_nodeType hr harray item
      cases hu.symm.trans h
      exact hown.mem_names_iff harray

theorem mem_names_typeRef {s : Schema} {t : TypeRef} (h : typeRef keep s = .ok t) {n : String} :
    n ∈ t.names ↔ TypeNames keep s n := by
  induction s using items_induction generalizing t with
  | last s hnone =>
    rw [typeRef_eq, hnone] at h
    refine mem_names_nodeType (fun u hu => ?_) h
    cases hu
    simp [TypeRef.names, hnone]
  | items s i hi ih =>
    rw [typeRef_eq, hi] at h
    refine mem_names_nodeType (fun u hu => ?_) h
    simpa [hi] using ih hu

/-! ## Schemas that stand for models -/

/-- The schema whose type the model of a named schema stands for: that of a map's values, or the
alias' own without its title. -/
def standIn? (s : Schema) : Option Schema :=
  if s.hasEnum || s.hasOneOf then none
  else if isObject s then
    if s.properties.isEmpty then s.additional.bind (·.getRight?) else none
  else if s.primaryType?.isSome && s.title.isSome then some { s with title := none }
  else none

/-- An alias or a map names what the type of its stand-in does; other kinds have none. -/
theorem meaning_kindOf {name : String} {s : Schema} {kind : ModelKind}
    (h : (kindOf keep name s).value = .ok (some kind)) {n : String} :
    (∃ t, kind.meaning? = some t ∧ n ∈ t.names) ↔
      ∃ v, standIn? s = some v ∧ TypeNames keep v n := by
  unfold kindOf at h
  split at h
  · rename_i henum
    cases h
    simp [standIn?, henum, ModelKind.meaning?]
  rename_i henum
  split at h
  · rename_i hunion
    obtain ⟨members,_,he⟩ := exists_ok_of_map h
    cases he
    simp [standIn?, hunion, ModelKind.meaning?]
  rename_i hunion
  split at h
  · rename_i hobject
    split at h
    · rename_i hadditional hempty
      cases h
      simp [standIn?, henum, hunion, hobject, hadditional, ModelKind.meaning?, TypeRef.names]
    · rename_i values hadditional hempty
      obtain ⟨t,ht,he⟩ := exists_ok_of_map h
      cases he
      simp [standIn?, henum, hunion, hobject, hadditional, hempty, ModelKind.meaning?,
        TypeRef.names, mem_names_typeRef ht]
    · rename_i _ hvalues
      cases h
      have hnone (v : Schema) : standIn? s ≠ some v := by
        simpa [standIn?, henum, hunion, hobject, Option.bind_eq_some_iff,
          Sum.getRight?_eq_some_iff] using fun hempty he => hvalues v he hempty
      simp [hnone, ModelKind.meaning?]
  rename_i hobject
  split at h
  · rename_i halias
    obtain ⟨t,ht,he⟩ := exists_ok_of_map h
    cases he
    simp [standIn?, henum, hunion, hobject, halias, ModelKind.meaning?, mem_names_typeRef ht]
  · simp at h

/-! ## Sources -/

/-- The schema under a key of the document, if it can be read as one. -/
def schema? (d : Document) (key : String) : Option Schema :=
  (d.schemas.get? key).bind Schema.ofJson?

/-- A model has the kind that its source is of. -/
def HasSource (keep : List String) (d : Document) (m : Model) : Prop :=
  ∃ s, schema? d m.sourceName = some s ∧
    (kindOf keep m.sourceName s).value = .ok (some m.kind)

theorem kind_of_classify {name : String} {s : Schema} {m : Model}
    (h : (classify keep name s).value = .ok (some m)) :
    m.sourceName = name ∧ (kindOf keep name s).value = .ok (some m.kind) := by
  obtain ⟨kind,hkind,rfl⟩ := exists_kind_of_classify h
  exact ⟨rfl,hkind⟩

/-- A schema adds the model that it is the source of, or none. -/
theorem hasSource_addSchema {d : Document} {models : Dict Model}
    (h : ∀ k m, models.get? k = some m → HasSource keep d m) {name : String} {raw : Json}
    (hraw : d.schemas.get? name = some raw) {k : String} {m : Model}
    (hm : (addSchema keep models name raw).value.get? k = some m) : HasSource keep d m := by
  rcases value_addSchema keep models name raw with he | ⟨s,new,hs,hnew,_,he⟩
  · rw [he] at hm
    exact h k m hm
  · rw [he, Dict.get?_insert] at hm
    split at hm
    · obtain ⟨hname,hkind⟩ := kind_of_classify hnew
      cases hm
      refine ⟨s,?_,hname ▸ hkind⟩
      rw [schema?, hname, hraw, Option.bind_some, hs]
    · exact h k m hm

theorem hasSource_foldl {d : Document} {models : Dict Model}
    (h : ∀ k m, models.get? k = some m → HasSource keep d m) {schemas : List (String × Json)}
    (hs : ∀ e ∈ schemas, d.schemas.get? e.1 = some e.2) {k : String} {m : Model}
    (hm : (schemas.foldl (fun ms s => (addSchema keep ms s.1 s.2).value) models).get? k =
      some m) : HasSource keep d m := by
  induction schemas generalizing models with
  | nil => exact h k m hm
  | cons s rest ih =>
    obtain ⟨hfirst,hrest⟩ := List.forall_mem_cons.mp hs
    exact ih (fun _ _ => hasSource_addSchema h hfirst) hrest hm

theorem hasSource_models {d : Document} {m : Model} (hm : m ∈ (models keep d).value) :
    HasSource keep d m := by
  rw [value_models_eq] at hm
  obtain ⟨m',hm',he⟩ := exists_of_mem_linkUnions hm
  obtain ⟨k,hk⟩ := Dict.mem_values_iff.mp hm'
  have hempty : ∀ k m, (Dict.empty : Dict Model).get? k = some m → HasSource keep d m := by simp
  have hsource : HasSource keep d m' :=
    hasSource_foldl hempty (fun _ => Dict.get?_eq_some_iff.mpr) hk
  -- links to unions change neither the source nor the kind
  obtain ⟨hname,hkind⟩ : m.sourceName = m'.sourceName ∧ m.kind = m'.kind := by
    simp only [Model.mk.injEq] at he
    exact ⟨he.2.1,he.2.2.2.1⟩
  unfold HasSource
  rw [hname, hkind]
  exact hsource

end Classify
end ClientGen
