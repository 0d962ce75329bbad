import ClientGen.Proofs.Code.Names
import ClientGen.Proofs.DataTypes.Scopes
import ClientGen.Proofs.Ident.Capitals
import ClientGen.Proofs.Number.Numerals

/-! # Names of data types

Fields are named as bindings and variants as types. A constant is named after the value it stands
for, where signs and points become letters and underscores. A variant of a union has the name of a
model, so it can be declared if the model can.
-/
namespace ClientGen.Sdk.DataTypes
open Code (Item)
open Ident (Plain)

/-! ## Records and enumerations -/

/-- All items of the list give names that can be declared. -/
abbrev ItemsDeclarable (items : List Item) : Prop :=
  ∀ i ∈ items, i.Declarable

theorem declarable_recordItems (s : ModelSet) {m : Model} (hm : Plain m.name) (r : Record)
    (docs : List String) : ItemsDeclarable (recordItems s m r docs) := by
  intro i hi
  rcases List.mem_append.mp hi with hi | hi
  · rcases List.mem_cons.mp hi with rfl | hi
    · intro n hn
      rcases List.mem_cons.mp hn with rfl | hn
      · exact .plain hm
      · have hfields : n ∈ fieldNames r.fields := by
          rw [← fieldNames_recordStruct s m.name]
          exact hn
        exact Ident.declarable_of_mem_bindings hfields
    · obtain ⟨d,_,rfl⟩ := Option.map_eq_some_iff.mp (Option.mem_toList.mp hi)
      exact Ident.declarable_of_forall_plain (show ∀ n ∈ ["TYPE","get_type"], Plain n by decide)
  · obtain ⟨impl,himpl,rfl⟩ := List.mem_map.mp hi
    obtain ⟨u,_,hunion⟩ := List.mem_filterMap.mp himpl
    obtain ⟨_,v,_,_,rfl⟩ := unionImpl?_iff.mp hunion
    exact Ident.declarable_of_forall_plain (show ∀ n ∈ ["from","value"], Plain n by decide)

theorem declarable_textEnumItems {name : String} (hname : Plain name) (texts docs : List String) :
    ItemsDeclarable (textEnumItems name texts docs) := by
  intro i hi
  simp only [textEnumItems, List.mem_cons, List.not_mem_nil, or_false] at hi
  rcases hi with rfl | rfl | rfl
  · intro n hn
    rcases List.mem_cons.mp hn with rfl | hn
    · exact .plain hname
    · rw [Code.Enum.variantNames, List.map_map] at hn
      have hvariant : n ∈ (textVariants texts).map (·.1) := hn
      rw [variantNames_textEnum] at hvariant
      refine .plain (Ident.plain_of_mem_reserveAll ?_ hvariant)
      intro base hbase
      obtain ⟨text,_,rfl⟩ := List.mem_map.mp hbase
      exact (Ident.capital_variantName text).plain
  · exact Ident.declarable_of_forall_plain (show ∀ n ∈ ["as_str"], Plain n by decide)
  · exact Ident.declarable_of_forall_plain (show ∀ n ∈ ["fmt","f"], Plain n by decide)

/-! ## Constants -/

theorem constantName_append (a b : String) :
    constantName (a ++ b) = constantName a ++ constantName b := by
  apply String.toList_inj.mp
  simp [constantName, Text.replaceChar, Text.upperAscii]

theorem mem_replaceChar {old : Char} {new s : String} {c : Char}
    (h : c ∈ (Text.replaceChar old new s).toList) : c ∈ new.toList ∨ c ∈ s.toList ∧ c ≠ old := by
  rw [Text.replaceChar, String.toList_ofList] at h
  obtain ⟨d,hd,hmem⟩ := List.mem_flatMap.mp h
  split at hmem
  · exact .inl hmem
  · rename_i hne
    rw [List.mem_singleton.mp hmem]
    exact .inr ⟨hd,hne⟩

/-- Signs and points are written as letters and underscores, and all else stays what it is. -/
theorem wordlike_constantName {name : String} (h : Numeral name.toList) :
    Wordlike (constantName name).toList := by
  have hupper : Numeral (Text.upperAscii name).toList := by
    intro c hc
    rw [Text.upperAscii, String.toList_ofList] at hc
    obtain ⟨d,hd,rfl⟩ := List.mem_map.mp hc
    rcases h d hd with hd | rfl | rfl
    · exact .inl (Text.isAlphanum_toUpper hd)
    · exact .inr (.inl rfl)
    · exact .inr (.inr rfl)
  intro c hc
  rcases mem_replaceChar hc with hc | ⟨hc,hpoint⟩
  · exact .inr (by simpa using hc)
  · rcases mem_replaceChar hc with hc | ⟨hc,hsign⟩
    · have hN : c = 'N' := by simpa using hc
      exact .inl (hN ▸ rfl)
    · exact .inl (((hupper c hc).resolve_right (by simp [hsign, hpoint])))

theorem plain_numbered {literal : String} (h : Numeral literal.toList) :
    Plain (constantName (numbered literal).1) := by
  have hvalue : constantName "VALUE_" = "VALUE_" := by decide
  have hprefix : Ident.NameLike "VALUE_".toList := ⟨by simp [Wordlike],'V',_,rfl,rfl⟩
  rw [numbered, constantName_append, hvalue]
  refine Ident.plain_of_underscore ?_ (by simp)
  rw [String.toList_append]
  exact hprefix.append (wordlike_constantName h)

theorem declarable_constantItems {name : String} (hname : Plain name) {c : Constants}
    (hc : ∀ v ∈ c.values, Plain (constantName v.1)) (docs : List String) :
    ItemsDeclarable (constantItems name c docs) := by
  intro i hi
  simp only [constantItems, List.mem_cons, List.not_mem_nil, or_false] at hi
  rcases hi with rfl | rfl
  · intro n hn
    rw [List.mem_singleton.mp hn]
    exact .plain hname
  · refine Item.declarable_impl fun m hm => ?_
    rcases List.mem_append.mp hm with hm | hm
    · obtain ⟨⟨n,v⟩,hz,rfl⟩ := List.mem_map.mp hm
      intro n' hn'
      rw [List.mem_singleton.mp hn']
      refine Ident.declarable_of_mem_reserveAll ?_ (List.of_mem_zip hz).1
      intro base hbase
      obtain ⟨v,hv,rfl⟩ := List.mem_map.mp hbase
      exact .plain (hc v hv)
    · rw [List.mem_singleton.mp hm]
      exact Ident.declarable_of_forall_plain (show ∀ n ∈ ["value"], Plain n by decide)

theorem declarable_enumItems {name : String} (hname : Plain name) (values : EnumValues)
    (docs : List String) : ItemsDeclarable (enumItems name values docs).value := by
  cases values with
  | texts vs =>
    cases vs with
    | nil =>
      intro i hi n hn
      simp only [enumItems, Logged.value_bind, Logged.value_pure, List.mem_singleton] at hi
      subst hi
      rw [List.mem_singleton.mp hn]
      exact .plain hname
    | cons v vs => exact declarable_textEnumItems hname (v :: vs) docs
  | integers vs =>
    refine declarable_constantItems hname (c := ⟨_,_,_⟩) ?_ docs
    intro v hv
    obtain ⟨i,_,rfl⟩ := List.mem_map.mp hv
    exact plain_numbered (numeral_int i)
  | numbers vs =>
    refine declarable_constantItems hname (c := ⟨_,_,_⟩) ?_ docs
    intro v hv
    obtain ⟨x,_,rfl⟩ := List.mem_map.mp hv
    exact plain_numbered x.numeral_text
  | booleans vs =>
    refine declarable_constantItems hname (c := ⟨_,_,_⟩) ?_ docs
    intro v hv
    obtain ⟨b,_,rfl⟩ := List.mem_map.mp hv
    cases b <;> decide

/-! ## Unions -/

theorem plain_of_mem_ofMembers {c : Containment} {union : String} {members : List TypeRef}
    (h : ∀ n, .named n ∈ members → Plain n) {variant : String}
    (hv : variant ∈ (UnionVariant.ofMembers c union members).map (·.name)) : Plain variant := by
  rw [map_name_ofMembers] at hv
  refine Ident.plain_of_mem_reserveAll ?_ hv
  intro base hbase
  obtain ⟨t,ht,rfl⟩ := List.mem_map.mp hbase
  cases t with
  | named n => exact h n (List.mem_eraseDups.mp ht)
  | _ =>
    simp only [UnionVariant.baseName]
    decide

/-- The names that a model brings into its declarations can be declared. -/
structure Nameable (m : Model) : Prop where
  name : Plain m.name
  lists : ∀ n, m.Lists n → Plain n

variable {models : List Model}

theorem declarable_unionItems (hd : (models.map (·.name)).Nodup) {m : Model} (hm : m ∈ models)
    (hn : Nameable m) {members : List TypeRef} (hk : m.kind = .union members)
    (docs : List String) :
    ItemsDeclarable (unionItems (.ofModels models) m.name docs).value := by
  intro i hi
  simp only [unionItems, get?_unions hd hm hk, Option.getD_some] at hi
  split at hi
  · simp only [Logged.value_bind, Logged.value_pure, List.mem_singleton] at hi
    subst hi
    intro n hmem
    rw [List.mem_singleton.mp hmem]
    exact .plain hn.name
  · simp only [Logged.value_pure, List.mem_singleton] at hi
    subst hi
    intro n hmem
    rcases List.mem_cons.mp hmem with rfl | hmem
    · exact .plain hn.name
    · simp only [Code.Enum.variantNames, List.map_map] at hmem
      exact .plain (plain_of_mem_ofMembers (fun n hlists => hn.lists n ⟨members,hk,hlists⟩) hmem)

/-! ## Files -/

theorem declarable_declarations (hd : (models.map (·.name)).Nodup) {m : Model} (hm : m ∈ models)
    (hn : Nameable m) : ItemsDeclarable (declarations (.ofModels models) m).value := by
  have halias (a : Code.Alias) (ha : a.name = m.name) : ItemsDeclarable [.alias a] := by
    intro i hi n hmem
    rw [List.mem_singleton.mp hi] at hmem
    rw [List.mem_singleton.mp hmem, ha]
    exact .plain hn.name
  unfold declarations
  cases hk : m.kind with
  | record r => exact declarable_recordItems _ hn.name r _
  | enum values => exact declarable_enumItems hn.name values _
  | «alias» target => exact halias _ rfl
  | map value => exact halias _ rfl
  | union members => exact declarable_unionItems hd hm hn hk _

theorem declarable_files (hd : (models.map (·.name)).Nodup) (hn : ∀ m ∈ models, Nameable m)
    {f : Code.File} (hf : f ∈ (files models).value) : ItemsDeclarable f.module.items := by
  rw [value_files] at hf
  rcases List.mem_append.mp hf with hf | hf
  · obtain ⟨named,hz,rfl⟩ := List.mem_map.mp hf
    have hm := (List.of_mem_zip hz).2
    rw [items_fileOf]
    intro i hi
    rcases List.mem_append.mp hi with hi | hi
    · unfold importItems at hi
      split at hi
      · cases hi
      · rw [List.mem_singleton.mp hi]
        exact fun n hmem => absurd hmem List.not_mem_nil
    · exact declarable_declarations hd hm (hn _ hm) i hi
  · rw [List.mem_singleton.mp hf]
    intro i hi n hmem
    rcases List.mem_append.mp hi with hi | hi
    · obtain ⟨⟨module,name⟩,hz,rfl⟩ := List.mem_map.mp hi
      rw [List.mem_singleton.mp hmem]
      exact Ident.declarable_of_mem_bindings (List.of_mem_zip hz).1
    · obtain ⟨_,_,rfl⟩ := List.mem_map.mp hi
      exact absurd hmem List.not_mem_nil

end ClientGen.Sdk.DataTypes
