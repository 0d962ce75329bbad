import ClientGen.Code.Words
import ClientGen.Proofs.Ident.Snake

/-! # Legal identifiers

The name of a binding, and every name handed out for one, is an identifier that generated code can
declare. It begins with a letter, and a word of the language stands for a name in the raw form only.
-/
namespace ClientGen.Ident
open Text (Joined)

/-- Words with a letter in front. -/
structure NameLike (cs : List Char) : Prop where
  wordlike : Wordlike cs
  letter : ∃ c rest, cs = c :: rest ∧ c.isAlpha = true

namespace NameLike
variable {cs ds : List Char} {name : String}

theorem append (h : NameLike cs) (hd : Wordlike ds) : NameLike (cs ++ ds) := by
  refine ⟨h.wordlike.append hd,?_⟩
  obtain ⟨c,rest,rfl,hc⟩ := h.letter
  exact ⟨c,rest ++ ds,rfl,hc⟩

/-- What begins with a letter is no lone underscore. -/
theorem isBareName (h : NameLike name.toList) : Code.isBareName name = true := by
  obtain ⟨hword,c,rest,hname,hc⟩ := h
  have halnum : c.isAlphanum = true := by rw [Char.isAlphanum, hc, Bool.true_or]
  have hstart : Code.isNameStart c = true := by
    rw [Code.isNameStart, if_pos (Text.isAscii_of_isAlphanum halnum), hc, Bool.or_true]
  have hparts : rest.all Code.isNamePart = true := by
    rw [List.all_eq_true]
    intro d hd
    rcases hword d (hname ▸ List.mem_cons_of_mem c hd) with hd | rfl
    · rw [Code.isNamePart, Text.isAlphanumeric_of_isAlphanum hd, Bool.or_true]
    · rfl
  have hne : (name != "_") = true := by
    rw [bne_iff_ne]
    rintro rfl
    have hunder : c = '_' := (List.cons.inj hname).1.symm
    rw [hunder] at hc
    exact absurd hc (by decide)
  rw [Code.isBareName, hname]
  simp only [hstart, hparts, hne, Bool.and_self]

end NameLike

/-! ## Keywords and words -/

theorem nameLike_keywords : ∀ k ∈ keywords, NameLike k.toList := by
  intro k hk
  refine ⟨wordlike_of_isKeyword (isKeyword_iff.mpr hk),?_⟩
  have hall : keywords.all (fun k => k.toList.head?.any Char.isAlpha) = true := by decide
  have hfirst := List.all_eq_true.mp hall k hk
  cases hlist : k.toList with
  | nil => simp [hlist] at hfirst
  | cons c rest => exact ⟨c,rest,rfl,by simpa [hlist] using hfirst⟩

/-- Snake case begins with a letter: its first word is not empty and begins with no digit. -/
theorem nameLike_snake (name : String) : NameLike (snake name).toList := by
  refine ⟨snake_wordlike name,?_⟩
  obtain ⟨hjoined,hdigit⟩ := joined_snake name
  obtain ⟨ws,hne,hlow,hcs⟩ := hjoined
  obtain ⟨w,ws,rfl⟩ := List.exists_cons_of_ne_nil hne
  have hw := hlow w List.mem_cons_self
  obtain ⟨c,rest,rfl⟩ := List.exists_cons_of_ne_nil hw.ne_nil
  obtain ⟨tail,htail⟩ : ∃ tail, (snake name).toList = c :: tail := by
    rw [hcs]
    cases ws with
    | nil => exact ⟨rest,List.intercalate_singleton⟩
    | cons v vs => exact ⟨_,List.intercalate_cons_cons⟩
  have halnum := hw.alnum c List.mem_cons_self
  rw [htail] at hdigit
  have hnot : c.isDigit = false := hdigit
  rw [Char.isAlphanum, hnot, Bool.or_false] at halnum
  exact ⟨c,tail,htail,halnum⟩

/-! ## Declarable names -/

/-- Keywords of the generated language. -/
def strictKeywords : List String :=
  ["as","async","await","break","const","continue","crate","dyn","else","enum","extern","false",
    "fn","for","if","impl","in","let","loop","match","mod","move","mut","pub","ref","return","self",
    "Self","static","struct","super","trait","true","type","unsafe","use","where","while"]

/-- Words that the generated language keeps for keywords to come. -/
def reservedKeywords : List String :=
  ["abstract","become","box","do","final","gen","macro","override","priv","try","typeof","unsized",
    "virtual","yield"]

/-- The words that no name can be. -/
def reservedWords : List String :=
  strictKeywords ++ reservedKeywords

theorem isKeyword_iff_mem_reservedWords {name : String} :
    isKeyword name = true ↔ name ∈ reservedWords := by
  have hsame : keywords ⊆ reservedWords ∧ reservedWords ⊆ keywords := by decide +kernel
  rw [isKeyword_iff]
  exact ⟨fun h => hsame.1 h,fun h => hsame.2 h⟩

/-- A name as it stands: it begins with a letter and is no word of the language. -/
structure Plain (name : String) : Prop where
  nameLike : NameLike name.toList
  unreserved : name ∉ reservedWords

theorem plain_iff {name : String} : Plain name ↔
    (name.toList.all fun c => c.isAlphanum || c == '_') = true ∧
      name.toList.head?.any Char.isAlpha = true ∧ name ∉ reservedWords := by
  have hword : (name.toList.all fun c => c.isAlphanum || c == '_') = true ↔
      Wordlike name.toList := by simp [Wordlike]
  rw [hword]
  constructor
  · rintro ⟨⟨hword,c,rest,hname,hc⟩,hk⟩
    exact ⟨hword,by simpa [hname] using hc,hk⟩
  · rintro ⟨hword,hfirst,hk⟩
    cases hname : name.toList with
    | nil => simp [hname] at hfirst
    | cons c rest => exact ⟨⟨hword,c,rest,hname,by simpa [hname] using hfirst⟩,hk⟩

instance : DecidablePred Plain := fun _ => decidable_of_iff _ plain_iff.symm

/-- What generated code can declare: a plain name, or a word of the language in the raw form unless
it begins paths. -/
inductive Declarable : String → Prop
  | plain {name : String} (h : Plain name) : Declarable name
  | raw {k : String} (h : k ∈ reservedWords) (hpath : k ∉ Code.pathKeywords) :
    Declarable ("r#" ++ k)

theorem declarable_of_forall_plain {names : List String} (h : ∀ n ∈ names, Plain n) :
    ∀ n ∈ names, Declarable n :=
  fun n hn => .plain (h n hn)

theorem plain_of_isKeyword_eq_false {name : String} (h : NameLike name.toList)
    (hk : isKeyword name = false) : Plain name := by
  refine ⟨h,fun hmem => ?_⟩
  rw [isKeyword_iff_mem_reservedWords.mpr hmem] at hk
  cases hk

/-- No word of the language has an underscore. -/
theorem plain_of_underscore {name : String} (h : NameLike name.toList) (hmem : '_' ∈ name.toList) :
    Plain name :=
  plain_of_isKeyword_eq_false h (isKeyword_eq_false_of_mem hmem)

namespace Declarable
variable {name : String}

/-- The bare name begins with a letter, whichever form it was escaped to. -/
theorem nameLike_unraw (h : Declarable name) : NameLike (unraw name).toList := by
  cases h with
  | plain h =>
    rw [unraw_of_wordlike h.nameLike.wordlike]
    exact h.nameLike
  | raw h _ =>
    rw [unraw_raw]
    exact nameLike_keywords _ (isKeyword_iff.mp (isKeyword_iff_mem_reservedWords.mpr h))

/-- A name with a number can be declared wherever the name can. -/
theorem reserve (h : Declarable name) (used : List String) :
    Declarable (Ident.reserve name used).1 := by
  rcases reserve_cases name used with he | ⟨n,he⟩
  · rwa [he]
  · rw [he]
    refine .plain (plain_of_underscore ?_ (by simp))
    rw [String.toList_append, String.toList_append]
    exact (h.nameLike_unraw.append (by simp [Wordlike])).append (wordlike_digits n)

end Declarable

theorem declarable_bindingName (name : String) : Declarable (bindingName name) := by
  have hsnake := nameLike_snake name
  unfold bindingName escapeKeyword
  split
  · refine .plain (plain_of_underscore ?_ (by simp))
    rw [String.toList_append]
    exact hsnake.append (by simp [Wordlike])
  · rename_i hraw
    split
    · rename_i hk
      refine .raw (isKeyword_iff_mem_reservedWords.mp hk) fun hpath => hraw ?_
      have hnever : Code.pathKeywords ⊆ neverRaw := by decide
      exact List.contains_iff_mem.mpr (hnever hpath)
    · rename_i hk
      exact .plain (plain_of_isKeyword_eq_false hsnake (Bool.eq_false_iff.mpr hk))

theorem declarable_of_mem_reserveAll {used bases : List String}
    (h : ∀ base ∈ bases, Declarable base) {name : String}
    (hn : name ∈ reserveAll reserve used bases) : Declarable name :=
  of_mem_reserveAll (fun _ used hbase => hbase.reserve used) h hn

/-- The names of bindings can be declared in every scope that hands them out. -/
theorem declarable_of_mem_bindings {α : Type} {used : List String} {xs : List α} {f : α → String}
    {name : String} (h : name ∈ reserveAll reserve used (xs.map fun x => bindingName (f x))) :
    Declarable name := by
  refine declarable_of_mem_reserveAll ?_ h
  intro base hbase
  obtain ⟨x,_,rfl⟩ := List.mem_map.mp hbase
  exact declarable_bindingName (f x)

/-! ## Legal names -/

/-- An identifier that is no keyword as it stands. -/
structure Legal (name : String) : Prop where
  isName : Code.isName name = true
  notKeyword : isKeyword name = false

theorem Plain.legal {name : String} (h : Plain name) : Legal name := by
  have hk : isKeyword name = false :=
    Bool.eq_false_iff.mpr fun hk => h.unreserved (isKeyword_iff_mem_reservedWords.mp hk)
  refine ⟨?_,hk⟩
  simp only [Code.isName, unraw_of_wordlike h.nameLike.wordlike, h.nameLike.isBareName, hk,
    Bool.not_false, Bool.true_or, if_true, Bool.and_self]

theorem Declarable.legal {name : String} (h : Declarable name) : Legal name := by
  cases h with
  | plain h => exact h.legal
  | @raw k h hpath =>
    have hk := isKeyword_iff_mem_reservedWords.mpr h
    have hne : k ≠ "r#" ++ k := ne_raw_of_wordlike (wordlike_of_isKeyword hk) k
    have hnever : ∀ k ∈ reservedWords, k ∉ Code.pathKeywords → neverRaw.contains k = false := by
      decide +kernel
    refine ⟨?_,?_⟩
    · simp only [Code.isName, unraw_raw, (nameLike_keywords k (isKeyword_iff.mp hk)).isBareName,
        if_neg hne, hnever k h hpath, Bool.not_false, Bool.and_self]
    · rw [Bool.eq_false_iff]
      intro hraw
      exact ne_raw_of_wordlike (wordlike_of_isKeyword hraw) k rfl

end ClientGen.Ident
