import ClientGen.Proofs.Classify.Schemas
import Mathlib.Data.List.Basic

/-! # Properties of records

Each property of a record is a field or is named by a warning, and one that is no field has no say
in what the others become.
-/
namespace ClientGen

/-- A warning that names a property. -/
def Warning.isAboutProperty (property : String) : Warning → Bool
  | .unusableProperty p _ => p == property
  | _ => false

def Schema.withoutProperty (s : Schema) (p : String) : Schema :=
  { s with properties := s.properties.erase p }

namespace Classify
variable {keep : List String} {name : String} {s : Schema}

/-! ## Record schemas -/

/-- An object that is not a map. -/
structure IsRecord (s : Schema) : Prop where
  noEnum : s.hasEnum = false
  noOneOf : s.hasOneOf = false
  isObject : isObject s = true
  noMap : s.properties.isEmpty = true →
    s.additional ≠ some (.inl true) ∧ ∀ values, s.additional ≠ some (.inr values)

theorem isRecord_of_kindOf {r : Record}
    (h : (kindOf keep name s).value = .ok (some (.record r))) : IsRecord s := by
  unfold kindOf at h
  split at h
  · simp at h
  rename_i henum
  split at h
  · obtain ⟨members,_,hkind⟩ := exists_ok_of_map h
    simp at hkind
  rename_i hunion
  split at h
  · rename_i hobject
    split at h
    · simp at h
    · obtain ⟨t,_,hkind⟩ := exists_ok_of_map h
      simp at hkind
    · rename_i hany hvalues
      refine ⟨by simpa using henum,by simpa using hunion,hobject,fun hempty => ⟨?_,?_⟩⟩
      · exact fun he => hany he hempty
      · exact fun values he => hvalues values he hempty
  split at h
  · obtain ⟨t,_,hkind⟩ := exists_ok_of_map h
    simp at hkind
  · simp at h

theorem IsRecord.kindOf_eq (h : IsRecord s) : kindOf keep name s =
    ⟨.ok (some (.record (record keep name s).value)),(record keep name s).warnings⟩ := by
  rw [kindOf, h.noEnum, h.noOneOf, h.isObject]
  simp only [Bool.false_eq_true, if_false, if_true]
  split
  · rename_i hadditional hempty
    exact absurd hadditional (h.noMap hempty).1
  · rename_i values hadditional hempty
    exact absurd hadditional ((h.noMap hempty).2 values)
  · exact congrArg (Logged.mk _) (List.append_nil _)

/-- The model of a record schema. -/
theorem IsRecord.classify_eq (h : IsRecord s) : classify keep name s =
    ⟨.ok (some ⟨typeName keep name,name,s.description,.record (record keep name s).value,[]⟩),
      (record keep name s).warnings⟩ := by
  rw [classify, h.kindOf_eq]
  exact congrArg (Logged.mk _) (List.append_nil _)

theorem IsRecord.withoutProperty (h : IsRecord s) {p : String}
    (hp : (s.withoutProperty p).properties.isEmpty = false) : IsRecord (s.withoutProperty p) := by
  refine ⟨h.noEnum,h.noOneOf,?_,?_⟩
  · have hobject := h.isObject
    unfold Classify.isObject at hobject ⊢
    split
    · rename_i t ht
      have hs : s.primaryType? = some t := ht
      rwa [hs] at hobject
    · rw [hp]
      rfl
  · intro hempty
    rw [hp] at hempty
    exact absurd hempty Bool.false_ne_true

/-! ## Fields -/

theorem name_of_field {required : List String} {p : String} {raw : Json} {f : Field}
    (h : field keep required p raw = .ok f) : f.name = p := by
  unfold field at h
  split at h
  · simp [throw, throwThe, MonadExceptOf.throw] at h
  · rename_i prop _
    cases ht : typeRef keep prop with
    | error e => simp [ht, bind, Except.bind] at h
    | ok t =>
      simp only [ht, bind, Except.bind, pure, Except.pure, Except.ok.injEq] at h
      rw [← h]

/-- What is made of the entries with one key can be told by `select` from what is made of others. -/
theorem filter_filterMap {α : Type} {es : List (String × Json)} {make : String × Json → Option α}
    {select : α → Bool} {k : String}
    (h : ∀ e x, make e = some x → (select x = true ↔ e.1 = k)) :
    (es.filterMap make).filter select = (es.filter fun e => e.1 == k).filterMap make := by
  induction es with
  | nil => rfl
  | cons e rest ih =>
    cases hmake : make e with
    | none =>
      rw [List.filterMap_cons_none hmake, ih, List.filter_cons]
      split
      · rw [List.filterMap_cons_none hmake]
      · rfl
    | some x =>
      have hselect : select x = (e.1 == k) := by
        rw [Bool.eq_iff_iff, h e x hmake, beq_iff_eq]
      rw [List.filterMap_cons_some hmake, List.filter_cons, List.filter_cons, hselect, ih]
      split
      · rw [List.filterMap_cons_some hmake]
      · rfl

/-- The field of a property, and the warning in its place. -/
def fieldOf? (keep : List String) (s : Schema) (e : String × Json) : Option Field :=
  (field keep s.required e.1 e.2).toOption

def warningOf? (keep : List String) (name : String) (s : Schema) (e : String × Json) :
    Option Warning :=
  match field keep s.required e.1 e.2 with
  | .ok _ => none
  | .error cause => some (.unusableProperty (name ++ "." ++ e.1) cause)

theorem fields_record (keep : List String) (name : String) (s : Schema) :
    (record keep name s).value = .ofFields (s.properties.entries.filterMap (fieldOf? keep s)) := by
  rw [record]
  exact congrArg Record.ofFields List.filterMap_map

theorem warnings_record (keep : List String) (name : String) (s : Schema) :
    (record keep name s).warnings = s.properties.entries.filterMap (warningOf? keep name s) := by
  rw [record]
  exact List.filterMap_map

theorem isAboutProperty_iff {p : String} {e : String × Json} {w : Warning}
    (h : warningOf? keep name s e = some w) :
    w.isAboutProperty (name ++ "." ++ p) = true ↔ e.1 = p := by
  unfold warningOf? at h
  split at h
  · simp at h
  · rw [← Option.some.inj h, Warning.isAboutProperty, beq_iff_eq, String.append_right_inj]

theorem name_of_fieldOf? {e : String × Json} {f : Field} (h : fieldOf? keep s e = some f) :
    f.name = e.1 := by
  unfold fieldOf? at h
  cases hfield : field keep s.required e.1 e.2 with
  | error cause => simp [hfield, Except.toOption] at h
  | ok g =>
    rw [hfield] at h
    exact Option.some.inj h ▸ name_of_field hfield

/-- A property is one field and unmentioned, or no field and named by one warning. -/
def FieldOrWarning (name p : String) (fields : List Field) (warnings : List Warning) : Prop :=
  let found := fields.filter fun f => f.name == p
  let about := warnings.filter (·.isAboutProperty (name ++ "." ++ p))
  (∃ f, found = [f] ∧ about = []) ∨
    found = [] ∧ ∃ cause, about = [.unusableProperty (name ++ "." ++ p) cause]

theorem fieldOrWarning_record (keep : List String) (name : String) {p : String}
    (hp : p ∈ s.properties.keys) : FieldOrWarning name p (record keep name s).value.fields
      (record keep name s).warnings := by
  unfold FieldOrWarning
  intro fields warnings
  obtain ⟨raw,hraw⟩ := Dict.mem_keys_iff.mp hp
  have hentry : s.properties.entries.filter (fun e => e.1 == p) = [(p,raw)] := by
    rw [Dict.filter_key_eq, hraw]
    rfl
  have hsingle : ∀ {α : Type} (make : String × Json → Option α),
      [(p,raw)].filterMap make = (make (p,raw)).toList := by
    intro α make
    cases h : make (p,raw) <;> simp [h]
  have hfields : fields = (fieldOf? keep s (p,raw)).toList := by
    have hselect : ∀ e f, fieldOf? keep s e = some f → ((f.name == p) = true ↔ e.1 = p) :=
      fun e f hf => by rw [name_of_fieldOf? hf, beq_iff_eq]
    rw [← hsingle, ← hentry, ← filter_filterMap hselect]
    exact congrArg (fun r : Record => r.fields.filter fun f => f.name == p)
      (fields_record keep name s)
  have hwarnings : warnings = (warningOf? keep name s (p,raw)).toList := by
    rw [← hsingle, ← hentry, ← filter_filterMap fun _ _ => isAboutProperty_iff,
      ← warnings_record]
  rw [hfields, hwarnings, fieldOf?, warningOf?]
  cases field keep s.required p raw with
  | ok f => exact .inl ⟨f,rfl,rfl⟩
  | error cause => exact .inr ⟨rfl,cause,rfl⟩

/-! ## Properties left out -/

/-- A property without a field changes no other when it is taken away. -/
theorem record_withoutProperty {p : String}
    (hp : ∀ f ∈ (record keep name s).value.fields, f.name ≠ p) :
    (record keep name (s.withoutProperty p)).value = (record keep name s).value := by
  have hnone : ∀ e ∈ s.properties.entries, e.1 = p → fieldOf? keep s e = none := by
    rintro e he rfl
    rw [fields_record] at hp
    refine Option.eq_none_iff_forall_ne_some.mpr fun f hf => ?_
    exact hp f (List.mem_filterMap.mpr ⟨e,he,hf⟩) (name_of_fieldOf? hf)
  rw [fields_record, fields_record]
  refine congrArg Record.ofFields ?_
  show (s.properties.entries.filter fun e => e.1 != p).filterMap (fieldOf? keep s) = _
  rw [List.filterMap_filter]
  refine List.filterMap_congr fun e he => ?_
  by_cases h : e.1 = p
  · rw [hnone e he h, ite_self]
  · rw [if_pos (bne_iff_ne.mpr h)]

/-- What a schema that is classified as a record makes of its properties. -/
structure PropertiesApart (keep : List String) (name : String) (s : Schema) (m : Model)
    (r : Record) : Prop where
  fieldOrWarning : ∀ p ∈ s.properties.keys,
    FieldOrWarning name p r.fields (classify keep name s).warnings
  /-- The model stays as it is without a property that is no field. -/
  removable : ∀ p, (∀ f ∈ r.fields, f.name ≠ p) →
    (s.withoutProperty p).properties.isEmpty = false →
      (classify keep name (s.withoutProperty p)).value = .ok (some m)

theorem propertiesApart_of_classify {m : Model} {r : Record}
    (h : (classify keep name s).value = .ok (some m)) (hr : m.kind = .record r) :
    PropertiesApart keep name s m r := by
  obtain ⟨_,hkind⟩ := kind_of_classify h
  rw [hr] at hkind
  have hrecord := isRecord_of_kindOf hkind
  have hvalue : r = (record keep name s).value := by
    rw [hrecord.kindOf_eq] at hkind
    cases hkind
    rfl
  subst hvalue
  constructor
  · rw [hrecord.classify_eq]
    exact fun p => fieldOrWarning_record keep name
  · intro p hp hremains
    rw [hrecord.classify_eq] at h
    rw [(hrecord.withoutProperty hremains).classify_eq, record_withoutProperty hp]
    exact h

end Classify
end ClientGen
