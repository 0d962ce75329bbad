import ClientGen.Proofs.Ident.Letters

/-! # Escaped names

The name of a binding is a keyword in the raw form, or a word that is no keyword. Handing out names
keeps this, so the names of one scope stay apart when the mark of the raw form is left out, as file
names leave it out.
-/
namespace ClientGen.Ident

/-! ## The raw form -/

theorem unraw_raw (name : String) : unraw ("r#" ++ name) = name := by
  have hprefix : "r#".toList.isPrefixOf? ("r#" ++ name).toList = some name.toList := by
    rw [String.toList_append]
    simp
  rw [unraw, hprefix]
  exact String.ofList_toList

/-- What has only letters, digits and underscores is not in the raw form. -/
theorem ne_raw_of_wordlike {name : String} (h : Wordlike name.toList) (k : String) :
    name ≠ "r#" ++ k := by
  rintro rfl
  have hmark : '#' ∈ ("r#" ++ k).toList := by simp
  rcases h '#' hmark with hc | hc <;> exact absurd hc (by decide)

theorem unraw_of_wordlike {name : String} (h : Wordlike name.toList) : unraw name = name := by
  unfold unraw
  split
  · rename_i rest hrest
    have happend := List.append_eq_of_isPrefixOf?_eq_some hrest
    have hraw : name = "r#" ++ String.ofList rest := by
      apply String.toList_inj.mp
      rw [String.toList_append, String.toList_ofList (l := rest)]
      exact happend.symm
    exact absurd hraw (ne_raw_of_wordlike h _)
  · rfl

/-! ## Keywords -/

theorem isKeyword_iff {name : String} : isKeyword name = true ↔ name ∈ keywords := by
  simp [isKeyword]

theorem keywords_letters : ∀ k ∈ keywords, ∀ c ∈ k.toList, c.isAlphanum = true := by
  have hall : keywords.all (fun k => k.toList.all Char.isAlphanum) = true := by decide
  simpa using hall

theorem wordlike_of_isKeyword {k : String} (h : isKeyword k = true) : Wordlike k.toList :=
  fun c hc => .inl (keywords_letters k (isKeyword_iff.mp h) c hc)

/-- A word with an underscore in it is no keyword. -/
theorem isKeyword_eq_false_of_mem {name : String} (h : '_' ∈ name.toList) :
    isKeyword name = false := by
  by_contra hk
  rw [Bool.not_eq_false, isKeyword_iff] at hk
  exact absurd (keywords_letters name hk '_' h) (by decide)

/-! ## Escaped names -/

/-- A keyword in the raw form, or a word that is no keyword. -/
inductive Escaped : String → Prop
  | raw {k : String} (h : isKeyword k = true) : Escaped ("r#" ++ k)
  | plain {name : String} (hw : Wordlike name.toList) (hk : isKeyword name = false) : Escaped name

namespace Escaped
variable {a b name : String}

theorem wordlike_unraw (h : Escaped name) : Wordlike (unraw name).toList := by
  cases h with
  | raw h => rw [unraw_raw]; exact wordlike_of_isKeyword h
  | plain hw _ => rwa [unraw_of_wordlike hw]

/-- Two escaped names that are the same without the mark of the raw form are the same. -/
theorem eq_of_unraw_eq (ha : Escaped a) (hb : Escaped b) (h : unraw a = unraw b) : a = b := by
  cases ha with
  | raw hk =>
    rw [unraw_raw] at h
    cases hb with
    | raw _ => rw [h, unraw_raw]
    | plain hw hk' =>
      rw [unraw_of_wordlike hw] at h
      rw [h, hk'] at hk
      cases hk
  | plain hw hk =>
    rw [unraw_of_wordlike hw] at h
    cases hb with
    | raw hk' =>
      rw [unraw_raw] at h
      rw [h, hk'] at hk
      cases hk
    | plain hw' _ => rw [h, unraw_of_wordlike hw']

/-- An escaped name that is a keyword without the mark is that keyword in the raw form. -/
theorem unraw_eq_iff {k : String} (h : Escaped name) (hk : isKeyword k = true) :
    unraw name = k ↔ name = "r#" ++ k := by
  constructor
  · intro he
    exact h.eq_of_unraw_eq (.raw hk) (he.trans (unraw_raw k).symm)
  · rintro rfl
    exact unraw_raw k

end Escaped

theorem escaped_escapeKeyword {name : String} (h : Wordlike name.toList) :
    Escaped (escapeKeyword name) := by
  unfold escapeKeyword
  split
  · refine .plain ?_ (isKeyword_eq_false_of_mem (by simp))
    rw [String.toList_append]
    exact h.append (by simp [Wordlike])
  · split
    · exact .raw ‹_›
    · rename_i hk
      exact .plain h (Bool.eq_false_iff.mpr hk)

theorem escaped_bindingName (name : String) : Escaped (bindingName name) :=
  escaped_escapeKeyword (snake_wordlike name)

/-- The name of a binding is a keyword in the raw form only where the keyword stands for it. -/
theorem bindingName_eq_raw {name k : String} (h : isKeyword k = true)
    (hk : neverRaw.contains k = false) : bindingName name = "r#" ++ k ↔ snake name = k := by
  have hword := snake_wordlike name
  rw [bindingName, escapeKeyword]
  constructor
  · intro he
    split at he
    · have hlast : Wordlike (snake name ++ "_").toList := by
        rw [String.toList_append]
        exact hword.append (by simp [Wordlike])
      exact absurd he (ne_raw_of_wordlike hlast k)
    · split at he
      · exact (String.append_right_inj "r#").mp he
      · exact absurd he (ne_raw_of_wordlike hword k)
  · rintro rfl
    rw [if_neg (by rw [hk]; exact Bool.false_ne_true), if_pos h]

theorem unraw_bindingName (name : String) : unraw (bindingName name) =
    if neverRaw.contains (snake name) then snake name ++ "_" else snake name := by
  have hword := snake_wordlike name
  rw [bindingName, escapeKeyword]
  split
  · refine unraw_of_wordlike ?_
    rw [String.toList_append]
    exact hword.append (by simp [Wordlike])
  · split
    · exact unraw_raw _
    · exact unraw_of_wordlike hword

/-! ## Names handed out -/

theorem reserve_of_not_mem {base : String} {used : List String} (h : base ∉ used) :
    (reserve base used).1 = base := by
  have hfree : used.contains base = false := by simpa using h
  simp only [reserve, hfree, Bool.false_eq_true, if_false]

/-- What is handed out for a base is the base itself or its bare form with a number. -/
theorem reserve_cases (base : String) (used : List String) : (reserve base used).1 = base ∨
    ∃ n : Nat, (reserve base used).1 = unraw base ++ "_" ++ toString n := by
  simp only [reserve]
  split
  · exact .inr (exists_eq_firstFree (fun n => unraw base ++ "_" ++ toString n) used)
  · exact .inl rfl

theorem wordlike_digits (n : Nat) : Wordlike (toString n).toList := by
  intro c hc
  left
  rw [Nat.toString_eq_repr, Nat.toList_repr] at hc
  have hdigit := Nat.isDigit_of_mem_toDigits (by decide) (by decide) hc
  rw [Char.isAlphanum, hdigit, Bool.or_true]

theorem Escaped.reserve {base : String} (h : Escaped base) (used : List String) :
    Escaped (Ident.reserve base used).1 := by
  rcases reserve_cases base used with he | ⟨n,he⟩
  · rwa [he]
  · rw [he]
    refine .plain ?_ (isKeyword_eq_false_of_mem (by simp))
    rw [String.toList_append, String.toList_append]
    exact (h.wordlike_unraw.append (by simp [Wordlike])).append (wordlike_digits n)

variable {used bases : List String}

theorem escaped_of_mem_reserveAll (h : ∀ base ∈ bases, Escaped base) {name : String}
    (hn : name ∈ reserveAll reserve used bases) : Escaped name :=
  of_mem_reserveAll (fun _ used hbase => hbase.reserve used) h hn

/-- A base is handed out unless it was in use from the start. -/
theorem mem_reserveAll_of_mem {base : String} (h : base ∈ bases) (hu : base ∉ used) :
    base ∈ reserveAll reserve used bases := by
  induction bases generalizing used with
  | nil => cases h
  | cons first rest ih =>
    simp only [reserveAll, List.mem_cons]
    by_cases hgiven : base = (reserve first used).1
    · exact .inl hgiven
    · right
      have hrest : base ∈ rest := by
        rcases List.mem_cons.mp h with rfl | hrest
        · exact absurd (reserve_of_not_mem hu).symm hgiven
        · exact hrest
      refine ih hrest ?_
      rw [reserve_fresh.keeps]
      exact fun hmem => (List.mem_cons.mp hmem).elim hgiven hu

/-- The raw form of a keyword is handed out for a base that is this raw form, and for no other. -/
theorem raw_mem_reserveAll (h : ∀ base ∈ bases, Escaped base) {k : String}
    (hu : "r#" ++ k ∉ used) : "r#" ++ k ∈ reserveAll reserve used bases ↔ "r#" ++ k ∈ bases := by
  refine ⟨fun hn => ?_,fun hm => mem_reserveAll_of_mem hm hu⟩
  clear hu
  induction bases generalizing used with
  | nil => simp [reserveAll] at hn
  | cons base rest ih =>
    simp only [reserveAll, List.mem_cons] at hn
    rcases hn with hn | hn
    · rcases reserve_cases base used with he | ⟨n,he⟩
      · exact List.mem_cons.mpr (.inl (hn.trans he))
      · -- a name with a number is a word, so it is in no raw form
        have hword : Wordlike (unraw base ++ "_" ++ toString n).toList := by
          rw [String.toList_append, String.toList_append]
          exact ((h base List.mem_cons_self).wordlike_unraw.append (by simp [Wordlike])).append
            (wordlike_digits n)
        exact absurd (hn.trans he).symm (ne_raw_of_wordlike hword k)
    · exact List.mem_cons_of_mem _ (ih (fun b hb => h b (List.mem_cons_of_mem _ hb)) hn)

end ClientGen.Ident
