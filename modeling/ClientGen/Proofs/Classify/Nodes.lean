import ClientGen.Model.Classify

/-! # Types of nodes

What a node of a schema says about its type beside its items: a reference or a title names one, and
the declared type and format tell any other. Only an array asks for the type of its items.
-/
namespace ClientGen.Classify
variable {keep : List String} {s : Schema}

/-! ## What a node says -/

/-- Where a title gives the type: the schema is of no declared type, or text. -/
def IsTitled (s : Schema) : Prop :=
  s.primaryType? = none ∨ s.primaryType? = some "string" ∧ s.format ≠ some "date-time"

/-- A node that has an array's type. A reference goes before the declared type. -/
def IsArray (s : Schema) : Prop :=
  s.ref = none ∧ s.primaryType? = some "array"

instance : DecidablePred IsArray :=
  fun s => inferInstanceAs (Decidable (s.ref = none ∧ s.primaryType? = some "array"))

/-- What a declared type and format stand for when nothing gives it a name. -/
inductive StandsFor (type format : Option String) : TypeRef → Prop
  | text : type = some "string" → format ≠ some "date-time" → StandsFor type format .text
  | timestamp : type = some "string" → format = some "date-time" → StandsFor type format .timestamp
  | int32 : type = some "integer" → format = some "int32" → StandsFor type format .int32
  | int64 : type = some "integer" → format ≠ some "int32" → StandsFor type format .int64
  | float32 : type = some "number" → format = some "float" → StandsFor type format .float32
  | float64 : type = some "number" → format ≠ some "float" → StandsFor type format .float64
  | bool : type = some "boolean" → StandsFor type format .bool
  | map : type = some "object" → StandsFor type format (.map .any)
  /-- No type, one of no meaning, or an array of unknown items. -/
  | any : (∀ t ∈ type, t ∉ ["string", "integer", "number", "boolean", "object"]) →
    StandsFor type format .any

theorem StandsFor.unique {type format : Option String} {t u : TypeRef}
    (ht : StandsFor type format t) (hu : StandsFor type format u) : u = t := by
  -- two different rules never have one type and one format
  cases ht <;> cases hu <;> simp_all

/-- The type that a node gives by itself, where an array of unknown items holds anything. -/
inductive OwnType (keep : List String) (s : Schema) : TypeRef → Prop
  | ref {target name : String} : s.ref = some target → refName keep target = .ok name →
    OwnType keep s (.named name)
  | title {title : String} : s.ref = none → IsTitled s → s.title = some title →
    OwnType keep s (.named (typeName keep title))
  | declared {t : TypeRef} : s.ref = none → (IsTitled s → s.title = none) →
    StandsFor s.primaryType? s.format t → OwnType keep s t

theorem OwnType.unique {t u : TypeRef} (ht : OwnType keep s t) (hu : OwnType keep s u) :
    u = t := by
  cases ht with
  | ref hr hn =>
    cases hu with
    | ref hr' hn' =>
      cases hr.symm.trans hr'
      cases hn.symm.trans hn'
      rfl
    | title hr' => simp [hr] at hr'
    | declared hr' => simp [hr] at hr'
  | title hr htitled htitle =>
    cases hu with
    | ref hr' => simp [hr] at hr'
    | title _ _ htitle' =>
      cases htitle.symm.trans htitle'
      rfl
    | declared _ hnone => simp [hnone htitled] at htitle
  | declared hr hnone hstands =>
    cases hu with
    | ref hr' => simp [hr] at hr'
    | title _ htitled htitle => simp [hnone htitled] at htitle
    | declared _ _ hstands' => exact hstands.unique hstands'

theorem ownType_titled (hr : s.ref = none) (ht : IsTitled s) {other : TypeRef}
    (hother : StandsFor s.primaryType? s.format other) :
    OwnType keep s ((s.title.map fun title => .named (typeName keep title)).getD other) := by
  cases htitle : s.title with
  | none => exact .declared hr (fun _ => htitle) hother
  | some title => exact .title hr ht htitle

/-! ## The type of a node -/

theorem nodeType_of_ref {target : String} (hr : s.ref = some target)
    (item : Except TypeError TypeRef) :
    nodeType keep s item = (refName keep target).map .named := by
  simp only [nodeType, hr]

theorem nodeType_of_isArray (h : IsArray s) (item : Except TypeError TypeRef) :
    nodeType keep s item = item.map .array := by
  simp only [nodeType, h.1, h.2]

/-- A node that is neither a reference nor an array has a type, whatever its items are. -/
theorem exists_nodeType (hr : s.ref = none) (harray : ¬ IsArray s)
    (item : Except TypeError TypeRef) :
    ∃ t, nodeType keep s item = .ok t ∧ OwnType keep s t := by
  have hplain {t : TypeRef} (ht : ¬ IsTitled s) (h : StandsFor s.primaryType? s.format t) :
      OwnType keep s t := .declared hr (fun h => absurd h ht) h
  simp only [nodeType, hr]
  split
  case h_1 hp => exact ⟨_,rfl,ownType_titled hr (.inl hp) (.any (by simp [hp]))⟩
  case h_2 hp =>
    refine ⟨_,rfl,?_⟩
    split
    · rename_i hf
      exact hplain (by simp [IsTitled, hp, hf]) (.timestamp hp hf)
    · rename_i hf
      exact ownType_titled hr (.inr ⟨hp,hf⟩) (.text hp hf)
  case h_3 hp =>
    refine ⟨_,rfl,hplain (by simp [IsTitled, hp]) ?_⟩
    split
    · rename_i hf
      exact .int32 hp hf
    · rename_i hf
      exact .int64 hp hf
  case h_4 hp =>
    refine ⟨_,rfl,hplain (by simp [IsTitled, hp]) ?_⟩
    split
    · rename_i hf
      exact .float32 hp hf
    · rename_i hf
      exact .float64 hp hf
  case h_5 hp => exact ⟨_,rfl,hplain (by simp [IsTitled, hp]) (.bool hp)⟩
  case h_6 hp => exact absurd ⟨hr,hp⟩ harray
  case h_7 hp => exact ⟨_,rfl,hplain (by simp [IsTitled, hp]) (.map hp)⟩
  case h_8 htext hinteger hnumber hbool _ hobject hp =>
    refine ⟨_,rfl,hplain ?_ (.any ?_)⟩
    · simpa [IsTitled, hp] using fun h => (htext h).elim
    · simpa [hp] using ⟨htext,hinteger,hnumber,hbool,hobject⟩

/-- Only an array's type takes that of the items in. -/
theorem nodeType_congr (harray : ¬ IsArray s) (item other : Except TypeError TypeRef) :
    nodeType keep s item = nodeType keep s other := by
  cases hr : s.ref with
  | some target => rw [nodeType_of_ref hr, nodeType_of_ref hr]
  | none =>
    obtain ⟨t,ht,hown⟩ := exists_nodeType hr harray item
    obtain ⟨u,hu,hown'⟩ := exists_nodeType hr harray other
    rw [ht, hu, hown.unique hown']

/-! ## Types through items -/

/-- What holds without items, and with items that it holds of, holds of every schema. -/
@[elab_as_elim]
theorem items_induction {p : Schema → Prop} (s : Schema) (last : ∀ s, s.items = none → p s)
    (items : ∀ s i, s.items = some i → p i → p s) : p s := by
  induction s using typeRef.induct with
  | case1 _ _ _ _ _ _ _ i _ _ _ _ _ ih => exact items _ i rfl ih
  | case2 s hs =>
    refine last s (Option.eq_none_iff_forall_ne_some.mpr fun i => ?_)
    cases s
    rintro rfl
    exact hs _ _ _ _ _ _ _ _ _ _ _ _ _ rfl

theorem typeRef_eq (keep : List String) (s : Schema) :
    typeRef keep s = nodeType keep s ((s.items.map (typeRef keep)).getD (.ok .any)) := by
  rcases s with ⟨_,_,_,_,_,_,_,items,_,_,_,_,_⟩
  cases items <;> rfl

end ClientGen.Classify
