import ClientGen.Proofs.Classify.Models
import ClientGen.Proofs.Ident.TypeNames

/-! # Pointers to schemas

A reference is named by what follows its last slash, as it stands in the pointer. A key's slashes
and tildes stand there as digits behind a tilde, which its type name knows nothing of.
-/
namespace ClientGen.Classify
variable {keep : List String}

/-! ## Pointers -/

/-- Slashes separate the parts of a pointer, so one in a key is written with a tilde. -/
def pointerChar (c : Char) : List Char :=
  if c = '~' then ['~','0'] else if c = '/' then ['~','1'] else [c]

def pointerPart (key : String) : String :=
  String.ofList (key.toList.flatMap pointerChar)

/-- The pointer to a schema among the components. -/
def schemaPointer (key : String) : String :=
  "#/components/schemas/" ++ pointerPart key

theorem toList_pointerPart (key : String) :
    (pointerPart key).toList = key.toList.flatMap pointerChar :=
  String.toList_ofList

/-- No character vanishes from the pointer, and `#` stands for nothing but itself. -/
theorem exists_pointerChar_eq (c : Char) :
    ∃ first rest, pointerChar c = first :: rest ∧ (first = '#' ↔ c = '#') := by
  unfold pointerChar
  split
  · rename_i hc
    exact ⟨'~',['0'],rfl,by simp [hc]⟩
  split
  · rename_i hc
    exact ⟨'~',['1'],rfl,by simp [hc]⟩
  · exact ⟨c,[],rfl,Iff.rfl⟩

theorem slash_not_mem_pointerPart (key : String) : '/' ∉ (pointerPart key).toList := by
  rw [toList_pointerPart, List.mem_flatMap]
  rintro ⟨c,_,hc⟩
  unfold pointerChar at hc
  split at hc
  · simp at hc
  split at hc
  · simp at hc
  · rename_i hslash
    exact hslash (List.mem_singleton.mp hc).symm

theorem lastSegment_append {base : String} (hbase : base.toList.getLast? = some '/')
    {part : String} (hpart : '/' ∉ part.toList) : lastSegment (base ++ part) = part := by
  obtain ⟨front,hfront⟩ := List.getLast?_eq_some_iff.mp hbase
  have hkept : ∀ c ∈ part.toList.reverse, (c != '/') = true := by
    intro c hc
    rw [bne_iff_ne]
    rintro rfl
    exact hpart (List.mem_reverse.mp hc)
  rw [lastSegment, String.toList_append, hfront, List.reverse_append, List.reverse_append,
    List.takeWhile_append_of_pos hkept]
  simp

/-- A pointer to a schema names a type as its last part is named, unless there is none or it looks
like a whole pointer. -/
theorem refName_schemaPointer (keep : List String) (key : String) :
    refName keep (schemaPointer key) =
      if key.toList = [] ∨ key.toList.head? = some '#' then
        .error (.emptyReference (schemaPointer key))
      else .ok (typeName keep (pointerPart key)) := by
  have hlast : lastSegment (schemaPointer key) = pointerPart key :=
    lastSegment_append (by decide) (slash_not_mem_pointerPart key)
  have hempty : (pointerPart key).isEmpty = true ↔ key.toList = [] := by
    rw [String.isEmpty_iff, ← String.toList_eq_nil_iff, toList_pointerPart]
    cases key.toList with
    | nil => simp
    | cons c rest =>
      obtain ⟨_,_,hc,_⟩ := exists_pointerChar_eq c
      simp [hc]
  have hfirst : (pointerPart key).toList.head? = some '#' ↔ key.toList.head? = some '#' := by
    rw [toList_pointerPart]
    cases key.toList with
    | nil => simp
    | cons c rest =>
      obtain ⟨_,_,hc,hsame⟩ := exists_pointerChar_eq c
      simpa [hc] using hsame
  simp only [refName, hlast, Bool.or_eq_true, beq_iff_eq, hempty, hfirst]
  rfl

/-! ## Keys that pointers reach -/

theorem flatMap_pointerChar {cs : List Char} (htilde : '~' ∉ cs) (hslash : '/' ∉ cs) :
    cs.flatMap pointerChar = cs := by
  induction cs with
  | nil => rfl
  | cons c rest ih =>
    simp only [List.mem_cons, not_or] at htilde hslash
    rw [List.flatMap_cons, ih htilde.2 hslash.2, pointerChar, if_neg (Ne.symm htilde.1),
      if_neg (Ne.symm hslash.1), List.singleton_append]

/-- Each tilde and each slash brings a digit into the pointer. -/
theorem length_digits_flatMap (cs : List Char) :
    (Ident.digits (cs.flatMap pointerChar)).length =
      (Ident.digits cs).length + cs.countP fun c => c == '~' || c == '/' := by
  induction cs with
  | nil => rfl
  | cons c rest ih =>
    have hfirst : (Ident.digits (pointerChar c)).length =
        (Ident.digits [c]).length + [c].countP fun c => c == '~' || c == '/' := by
      unfold pointerChar
      split
      · rename_i hc
        subst hc
        rfl
      split
      · rename_i hc
        subst hc
        rfl
      · rename_i htilde hslash
        simp [htilde, hslash]
    rw [List.flatMap_cons, ← List.singleton_append, Ident.digits_append, Ident.digits_append,
      List.countP_append, List.length_append, List.length_append, hfirst, ih]
    omega

theorem digits_typeName (keep : List String) (raw : String) :
    Ident.digits (typeName keep raw).toList = Ident.digits raw.toList := by
  unfold typeName
  split
  · rfl
  · exact Ident.digits_typeName raw

/-- Only a key that a pointer writes as it is has one type name with what stands for it there: what
is written for a tilde or a slash has digits that the key has not. -/
theorem typeName_pointerPart (keep : List String) (key : String) :
    typeName keep (pointerPart key) = typeName keep key ↔
      '~' ∉ key.toList ∧ '/' ∉ key.toList := by
  constructor
  · intro h
    have hdigits : Ident.digits (pointerPart key).toList = Ident.digits key.toList := by
      rw [← digits_typeName keep, h, digits_typeName]
    have hnone : (key.toList.countP fun c => c == '~' || c == '/') = 0 := by
      have hlength := congrArg List.length hdigits
      rw [toList_pointerPart, length_digits_flatMap] at hlength
      omega
    rw [List.countP_eq_zero] at hnone
    exact ⟨fun hc => hnone _ hc (by simp),fun hc => hnone _ hc (by simp)⟩
  · rintro ⟨htilde,hslash⟩
    rw [pointerPart, flatMap_pointerChar htilde hslash, String.ofList_toList]

/-- A key that a pointer writes as it is and that does not look like a pointer itself. -/
structure Referable (key : String) : Prop where
  ne_nil : key.toList ≠ []
  notPointer : key.toList.head? ≠ some '#'
  unescaped : '~' ∉ key.toList ∧ '/' ∉ key.toList

theorem refName_eq_typeName (keep : List String) (key : String) :
    refName keep (schemaPointer key) = .ok (typeName keep key) ↔ Referable key := by
  rw [refName_schemaPointer]
  constructor
  · intro h
    split at h
    · cases h
    · rename_i hreadable
      rw [not_or] at hreadable
      exact ⟨hreadable.1,hreadable.2,(typeName_pointerPart keep key).mp (Except.ok.inj h)⟩
  · intro h
    rw [if_neg (not_or.mpr ⟨h.ne_nil,h.notPointer⟩),
      (typeName_pointerPart keep key).mpr h.unescaped]

/-! ## Models -/

theorem name_of_mem_models {d : Document} {m : Model} (hm : m ∈ (models keep d).value) :
    m.name = typeName keep m.sourceName := by
  have hnew : ∀ name s m, (classify keep name s).value = .ok (some m) →
      m.name = typeName keep m.sourceName := by
    intro name s m h
    obtain ⟨_,_,rfl⟩ := exists_kind_of_classify h
    rfl
  have hempty : ∀ k m, (Dict.empty : Dict Model).get? k = some m →
      m.name = typeName keep m.sourceName := by simp
  rw [value_models_eq] at hm
  obtain ⟨m',hm',he⟩ := exists_of_mem_linkUnions hm
  obtain ⟨k,hk⟩ := Dict.mem_values_iff.mp hm'
  -- links to unions change neither name
  simp only [Model.mk.injEq] at he
  rw [he.1, he.2.1]
  exact forall_foldl hnew hempty d.schemas.entries k m' hk

/-- A reference to a component schema finds the type name of its key, under which a model for the
schema stands, exactly if the key stands in the pointer as it is and does not begin with `#`. -/
theorem reference_finds_iff (keep : List String) :
    (∀ key, refName keep (schemaPointer key) = .ok (typeName keep key) ↔ Referable key) ∧
      ∀ d, (models keep d).value.map (·.name) =
        (models keep d).value.map fun m => typeName keep m.sourceName :=
  ⟨refName_eq_typeName keep,fun _ => List.map_congr_left fun _ => name_of_mem_models⟩

/-- Pointers to keys with a slash, a tilde or `#` in front do not find what the keys are named. -/
theorem markedKeys_not_found :
    refName [] (schemaPointer "a/b") = .ok "A1b" ∧ typeName [] "a/b" = "ASlashB" ∧
    refName [] (schemaPointer "a~b") = .ok "A0b" ∧ typeName [] "a~b" = "AB" ∧
    refName [] (schemaPointer "#a") = .error (.emptyReference "#/components/schemas/#a") ∧
    typeName [] "#a" = "A" := by
  decide +kernel

end ClientGen.Classify
