import ClientGen.Proofs.Code.Scopes
import ClientGen.Proofs.DataTypes.Conversions

/-! # Scopes of data types

Fields, variants and constants have names of their own. A union's variant has the name of a model as
it is, so the one of a preserved name in the raw form may be another variant without the mark.
-/
namespace ClientGen.Sdk.DataTypes
open Code (Item)
open Ident (Apart IsRaw)
variable {kept : String → String → Prop}

/-! ## Records and enumerations -/

/-- All items keep the names of their scopes apart. -/
abbrev ItemsApart (kept : String → String → Prop) (items : List Item) : Prop :=
  ∀ i ∈ items, i.ScopesApart kept

theorem fieldNames_recordStruct (s : ModelSet) (owner : String) (fields : List Field) :
    ((fields.zip (fieldNames fields)).map fun p => fieldCode s owner p.1 p.2).map (·.name) =
      fieldNames fields := by
  rw [List.map_map]
  exact List.map_snd_zip (by simp [fieldNames])

theorem apart_recordItems (s : ModelSet) (m : Model) (r : Record) (docs : List String) :
    ItemsApart kept (recordItems s m r docs) := by
  intro i hi
  rcases List.mem_append.mp hi with hi | hi
  · rcases List.mem_cons.mp hi with rfl | hi
    · have hfields : Apart (fieldNames r.fields) := Ident.apart_reserveAll _ _ _
      rw [← fieldNames_recordStruct s m.name] at hfields
      exact hfields
    · obtain ⟨d,_,rfl⟩ := Option.map_eq_some_iff.mp (Option.mem_toList.mp hi)
      refine ⟨?_,?_⟩
      · show Apart ["TYPE","get_type"]
        decide
      · intro member hmember
        simp only [discriminatorImpl, List.mem_cons, List.not_mem_nil, or_false] at hmember
        rcases hmember with rfl | rfl
        · trivial
        · exact List.nodup_nil
  · obtain ⟨impl,himpl,rfl⟩ := List.mem_map.mp hi
    obtain ⟨u,_,hunion⟩ := List.mem_filterMap.mp himpl
    obtain ⟨_,v,_,_,rfl⟩ := unionImpl?_iff.mp hunion
    exact Code.Impl.scopesApart_singleton rfl (List.nodup_singleton _)

theorem variantNames_textEnum (texts : List String) :
    ((textVariants texts).map (·.1)) =
      Ident.reserveAll Ident.reserveType [] (texts.map Ident.variantName) :=
  List.map_fst_zip (by simp)

theorem apart_textEnumItems (name : String) (texts docs : List String) :
    ItemsApart kept (textEnumItems name texts docs) := by
  intro i hi
  simp only [textEnumItems, List.mem_cons, List.not_mem_nil, or_false] at hi
  rcases hi with rfl | rfl | rfl
  · apply Ident.Apart.apartBut
    have hbases : ∀ base ∈ texts.map Ident.variantName, ¬ IsRaw base := by
      intro base hbase
      obtain ⟨text,_,rfl⟩ := List.mem_map.mp hbase
      exact Ident.not_isRaw_of_wordlike (Ident.alnum_variantName text).wordlike
    have hvariants : Apart ((textVariants texts).map (·.1)) := by
      rw [variantNames_textEnum]
      exact Ident.apart_reserveType hbases
    rw [Code.Enum.variantNames, List.map_map]
    exact hvariants
  · exact Code.Impl.scopesApart_singleton rfl List.nodup_nil
  · exact Code.Impl.scopesApart_singleton rfl (List.nodup_singleton _)

/-! ## Constants -/

/-- No letter of the name is in lower case. -/
def NoLower (name : String) : Prop :=
  ∀ c ∈ name.toList, c.isLower = false

theorem NoLower.not_isRaw {name : String} (h : NoLower name) : ¬ IsRaw name := by
  rintro ⟨k,rfl⟩
  have hfirst := h 'r' (by simp)
  exact absurd hfirst (by decide)

theorem NoLower.append {a b : String} (ha : NoLower a) (hb : NoLower b) : NoLower (a ++ b) := by
  intro c hc
  rw [String.toList_append] at hc
  rcases List.mem_append.mp hc with hc | hc
  · exact ha c hc
  · exact hb c hc

theorem NoLower.replaceChar {new name : String} (h : NoLower name) (hnew : NoLower new)
    (old : Char) : NoLower (Text.replaceChar old new name) := by
  intro c hc
  rw [Text.replaceChar, String.toList_ofList] at hc
  obtain ⟨d,hd,hmem⟩ := List.mem_flatMap.mp hc
  split at hmem
  · exact hnew c hmem
  · rw [List.mem_singleton.mp hmem]
    exact h d hd

theorem noLower_constantName (name : String) : NoLower (constantName name) := by
  have hupper : NoLower (Text.upperAscii name) := by
    intro c hc
    rw [Text.upperAscii, String.toList_ofList] at hc
    obtain ⟨d,_,rfl⟩ := List.mem_map.mp hc
    exact Char.isLower_toUpper_eq_false d
  have hN : NoLower "N" := by simp [NoLower]
  have hunderscore : NoLower "_" := by simp [NoLower]
  exact (hupper.replaceChar hN '-').replaceChar hunderscore '.'

theorem noLower_digits (n : Nat) : NoLower (toString n) := by
  intro c hc
  rw [Nat.toString_eq_repr, Nat.toList_repr] at hc
  have hdigit := Nat.isDigit_of_mem_toDigits (by decide) (by decide) hc
  simp only [Char.isLower, Char.isDigit, Bool.and_eq_true, decide_eq_true_eq, Bool.and_eq_false_iff,
    decide_eq_false_iff_not, UInt32.le_iff_toNat_le] at hdigit ⊢
  have ha : 'a'.val.toNat = 97 := rfl
  have h9 : '9'.val.toNat = 57 := rfl
  omega

theorem NoLower.reserve {base : String} (h : NoLower base) (used : List String) :
    NoLower (Ident.reserve base used).1 := by
  rcases Ident.reserve_cases base used with he | ⟨n,he⟩
  · rwa [he]
  · rw [he, Ident.unraw_of_not_isRaw h.not_isRaw]
    have hunderscore : NoLower "_" := by simp [NoLower]
    exact (h.append hunderscore).append (noLower_digits n)

/-- The names of constants differ from each other and from the function beside them. -/
theorem apart_constantNames (values : List (String × String)) :
    Apart (Ident.reserveAll Ident.reserve [] (values.map fun (n,_) => constantName n) ++
      ["value"]) := by
  let names := Ident.reserveAll Ident.reserve [] (values.map fun (n,_) => constantName n)
  have hnames : ∀ n ∈ names, NoLower n := by
    intro n hn
    refine Ident.of_mem_reserveAll (fun _ used hbase => hbase.reserve used) ?_ hn
    intro base hbase
    obtain ⟨v,_,rfl⟩ := List.mem_map.mp hbase
    exact noLower_constantName v.1
  have hvalue : ¬ NoLower "value" := fun h => absurd (h 'v' (by simp)) (by decide)
  apply Ident.apart_of_not_isRaw
  · refine (Ident.reserve_fresh.nodup_reserveAll _ _).append (List.nodup_singleton _) ?_
    intro n hn hmem
    rw [List.mem_singleton.mp hmem] at hn
    exact hvalue (hnames _ hn)
  · intro n hn
    rcases List.mem_append.mp hn with hn | hn
    · exact (hnames n hn).not_isRaw
    · rw [List.mem_singleton.mp hn]
      exact Ident.not_isRaw_of_wordlike (by simp [Wordlike])

theorem apart_constantItems (name : String) (c : Constants) (docs : List String) :
    ItemsApart kept (constantItems name c docs) := by
  intro i hi
  simp only [constantItems, List.mem_cons, List.not_mem_nil, or_false] at hi
  rcases hi with rfl | rfl
  · exact List.nodup_nil
  · refine ⟨?_,?_⟩
    · have hnames : (Ident.reserveAll Ident.reserve []
          (c.values.map fun (n,_) => constantName n)).length ≤ c.values.length := by simp
      have happart := apart_constantNames c.values
      rw [← List.map_fst_zip hnames] at happart
      simp only [List.map_append, List.map_map]
      exact happart
    · intro member hmember
      rcases List.mem_append.mp hmember with hmember | hmember
      · obtain ⟨_,_,rfl⟩ := List.mem_map.mp hmember
        trivial
      · rw [List.mem_singleton.mp hmember]
        exact List.nodup_nil

theorem apart_enumItems (name : String) (values : EnumValues) (docs : List String) :
    ItemsApart kept (enumItems name values docs).value := by
  cases values with
  | texts vs =>
    cases vs with
    | nil =>
      intro i hi
      simp only [enumItems, Logged.value_bind, Logged.value_pure, List.mem_singleton] at hi
      rw [hi]
      trivial
    | cons v vs => exact apart_textEnumItems name (v :: vs) docs
  | integers vs => exact apart_constantItems name _ docs
  | numbers vs => exact apart_constantItems name _ docs
  | booleans vs => exact apart_constantItems name _ docs

/-! ## Unions -/

/-- The variant is made from a name in the raw form that is preserved and that the union lists. -/
def KeptRaw (keep : List String) (models : List Model) (union variant : String) : Prop :=
  ∃ n ∈ keep, IsRaw n ∧ (∃ m ∈ models, m.name = union ∧ m.Lists n) ∧
    (variant = n ∨ ∃ k : Nat, variant = n ++ toString k)

theorem map_name_ofMembers (c : Containment) (union : String) (members : List TypeRef) :
    (UnionVariant.ofMembers c union members).map (·.name) =
      Ident.reserveAll Ident.reserveType [] (members.eraseDups.map UnionVariant.baseName) := by
  unfold UnionVariant.ofMembers
  rw [List.map_map]
  exact List.map_snd_zip (by simp)

/-- The names of the other types are words. -/
theorem exists_named_of_isRaw {t : TypeRef} (h : IsRaw (UnionVariant.baseName t)) :
    ∃ n, t = .named n ∧ IsRaw n := by
  cases t with
  | named n => exact ⟨n,rfl,h⟩
  | _ => exact absurd h (Ident.not_isRaw_of_wordlike (by simp [UnionVariant.baseName, Wordlike]))

theorem exists_member_of_isRaw {c : Containment} {union : String} {members : List TypeRef}
    {variant : String} (hv : variant ∈ (UnionVariant.ofMembers c union members).map (·.name))
    (hraw : IsRaw variant) : ∃ n, .named n ∈ members ∧ IsRaw n ∧
      (variant = n ∨ ∃ k : Nat, variant = n ++ toString k) := by
  rw [map_name_ofMembers] at hv
  obtain ⟨base,hbase,given,rfl⟩ := Ident.exists_base_of_mem hv
  obtain ⟨t,ht,rfl⟩ := List.mem_map.mp hbase
  have hmark : IsRaw (UnionVariant.baseName t) := by
    by_contra hmark
    exact Ident.not_isRaw_reserveType hmark given hraw
  obtain ⟨n,rfl,hn⟩ := exists_named_of_isRaw hmark
  exact ⟨n,List.mem_eraseDups.mp ht,hn,Ident.reserveType_cases n given⟩

theorem apart_unionItems {s : ModelSet} {name : String} {docs : List String}
    (h : ∀ vs, s.unions.get? name = some vs →
      Ident.ApartBut (kept name) (vs.map (·.name))) :
    ItemsApart kept (unionItems s name docs).value := by
  intro i hi
  unfold unionItems at hi
  cases hvs : s.unions.get? name with
  | none =>
    simp only [hvs, Option.getD_none, Logged.value_bind, Logged.value_pure,
      List.mem_singleton] at hi
    rw [hi]
    trivial
  | some vs =>
    have hnames := h vs hvs
    rw [hvs, Option.getD_some] at hi
    split at hi
    · simp only [Logged.value_bind, Logged.value_pure, List.mem_singleton] at hi
      rw [hi]
      trivial
    · simp only [Logged.value_pure, List.mem_singleton] at hi
      rw [hi]
      simp only [Item.ScopesApart, Code.Enum.variantNames, List.map_map]
      exact hnames

/-! ## Files -/

variable {keep : List String} {models : List Model}

theorem apart_unions (hkeep : ∀ m ∈ models, ∀ n, m.Lists n → IsRaw n → n ∈ keep) {u : String}
    {vs : List UnionVariant} (h : (ModelSet.ofModels models).unions.get? u = some vs) :
    Ident.ApartBut (KeptRaw keep models u) (vs.map (·.name)) := by
  obtain ⟨m,hm,members,hk,rfl,rfl⟩ := exists_union_of_get? h
  apply Ident.apartBut_of_isRaw
  · rw [map_name_ofMembers]
    exact Ident.reserveType_fresh.nodup_reserveAll _ _
  · intro variant hvariant hraw
    obtain ⟨n,hmember,hn,hwritten⟩ := exists_member_of_isRaw hvariant hraw
    have hlists : m.Lists n := ⟨members,hk,hmember⟩
    exact ⟨n,hkeep m hm n hlists hn,hn,⟨m,hm,rfl,hlists⟩,hwritten⟩

theorem apart_declarations (hkeep : ∀ m ∈ models, ∀ n, m.Lists n → IsRaw n → n ∈ keep)
    (m : Model) :
    ItemsApart (KeptRaw keep models) (declarations (.ofModels models) m).value := by
  have halias (a : Code.Alias) : ItemsApart (KeptRaw keep models) [.alias a] := by
    intro i hi
    rw [List.mem_singleton.mp hi]
    trivial
  unfold declarations
  cases m.kind with
  | record r => exact apart_recordItems _ m r _
  | enum values => exact apart_enumItems m.name values _
  | «alias» target => exact halias _
  | map value => exact halias _
  | union members => exact apart_unionItems fun _ => apart_unions hkeep

theorem apart_importItems (names : List String) : ItemsApart kept (importItems names) := by
  intro i hi
  unfold importItems at hi
  split at hi
  · cases hi
  · rw [List.mem_singleton.mp hi]
    trivial

theorem apart_index (modules : List (String × String)) :
    ItemsApart kept (index modules).items := by
  intro i hi
  rcases List.mem_append.mp hi with hi | hi
  · obtain ⟨_,_,rfl⟩ := List.mem_map.mp hi
    trivial
  · obtain ⟨_,_,rfl⟩ := List.mem_map.mp hi
    trivial

theorem apart_files (hkeep : ∀ m ∈ models, ∀ n, m.Lists n → IsRaw n → n ∈ keep)
    {f : Code.File} (hf : f ∈ (files models).value) :
    ItemsApart (KeptRaw keep models) f.module.items := by
  rw [value_files] at hf
  rcases List.mem_append.mp hf with hf | hf
  · obtain ⟨named,_,rfl⟩ := List.mem_map.mp hf
    rw [items_fileOf]
    intro i hi
    rcases List.mem_append.mp hi with hi | hi
    · exact apart_importItems _ i hi
    · exact apart_declarations hkeep named.2 i hi
  · rw [List.mem_singleton.mp hf]
    exact apart_index _

end ClientGen.Sdk.DataTypes
