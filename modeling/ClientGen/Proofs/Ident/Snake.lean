import ClientGen.Proofs.Ident.Escape

/-! # Snake case

A name in snake case is words of lower-case letters and digits with underscores between them. Such a
text falls into these words again, so a name in snake case is its own snake case.
-/
namespace ClientGen.Text

/-! ## Words in lower case -/

/-- A word of lower-case letters and digits, and not the empty one. -/
structure LowWord (w : List Char) : Prop where
  ne_nil : w ≠ []
  alnum : ∀ c ∈ w, c.isAlphanum = true
  low : ∀ c ∈ w, c.isUpper = false

theorem isAlphanumeric_of_isAlphanum {c : Char} (h : c.isAlphanum = true) :
    isAlphanumeric c = true := by
  rwa [isAlphanumeric, if_pos (isAscii_of_isAlphanum h)]

/-- Words in lower case are taken as they stand. -/
theorem lowerWord_eq_map {w : List Char} (h : ∀ c ∈ w, c.isAlphanum = true) :
    lowerWord w = w.map Char.toLower := by
  have htoLower {c : Char} (hc : c.isAlphanum = true) : toLower c = [c.toLower] := by
    rw [toLower, if_pos (isAscii_of_isAlphanum hc)]
  fun_induction lowerWord w with
  | case1 => rfl
  | case2 => exact absurd (h 'Σ' List.mem_cons_self) (by decide)
  | case3 c _ => exact htoLower (h c List.mem_cons_self)
  | case4 c rest _ ih =>
    rw [htoLower (h c List.mem_cons_self), ih fun d hd => h d (List.mem_cons_of_mem _ hd)]
    rfl

theorem map_toLower_of_low {cs : List Char} (h : ∀ c ∈ cs, c.isUpper = false) :
    cs.map Char.toLower = cs := by
  refine (List.map_congr_left fun c hc => ?_).trans (List.map_id cs)
  exact Char.toLower_eq_of_not_isUpper (by rw [h c hc]; exact Bool.false_ne_true)

namespace LowWord
variable {w : List Char}

theorem of_lowerWord (hne : w ≠ []) (h : ∀ c ∈ w, c.isAlphanum = true) :
    LowWord (lowerWord w) := by
  rw [lowerWord_eq_map h]
  refine ⟨by simpa using hne,fun c hc => ?_,fun c hc => ?_⟩
  · obtain ⟨d,hd,rfl⟩ := List.mem_map.mp hc
    exact isAlphanum_toLower (h d hd)
  · obtain ⟨d,_,rfl⟩ := List.mem_map.mp hc
    exact Char.isUpper_toLower_eq_false d

theorem lowerWord_eq (h : LowWord w) : lowerWord w = w := by
  rw [lowerWord_eq_map h.alnum, map_toLower_of_low h.low]

theorem not_isUpper (h : LowWord w) : ∀ c ∈ w, isUpper c = false := by
  intro c hc
  rw [isUpper, if_pos (isAscii_of_isAlphanum (h.alnum c hc)), h.low c hc]

end LowWord

/-! ## Words of a text in snake case -/

/-- Without upper case a run of letters and digits is one word. -/
theorem humps_of_not_isUpper (mode : WordMode) (word : List Char) {cs : List Char} (hne : cs ≠ [])
    (h : ∀ c ∈ cs, isUpper c = false) : humps mode word cs = [word ++ cs] := by
  fun_induction humps mode word cs with
  | case1 => exact absurd rfl hne
  | case2 => rfl
  | case3 mode word c d rest hd _ =>
    rw [h d (by simp)] at hd
    exact absurd hd.2 Bool.false_ne_true
  | case4 mode word c d rest _ hc _ =>
    rw [h c (by simp)] at hc
    exact absurd hc.2.1 Bool.false_ne_true
  | case5 mode word c d rest _ _ ih =>
    rw [ih (by simp) fun x hx => h x (List.mem_cons_of_mem _ hx), List.append_assoc]
    rfl

/-- No word of a run is empty: one that has been begun is not, and no other is ended. -/
theorem ne_nil_of_mem_humps {mode : WordMode} {word cs w : List Char}
    (hm : mode = .start ∨ word ≠ []) (h : w ∈ humps mode word cs) : w ≠ [] := by
  fun_induction humps mode word cs with
  | case1 => cases h
  | case2 mode word c =>
    rw [List.mem_singleton.mp h]
    simp
  | case3 mode word c d rest _ ih =>
    rcases List.mem_cons.mp h with rfl | h
    · simp
    · exact ih (.inl rfl) h
  | case4 mode word c d rest _ hc ih =>
    rcases List.mem_cons.mp h with rfl | h
    · refine hm.resolve_left ?_
      rw [hc.1]
      exact WordMode.noConfusion
    · exact ih (.inl rfl) h
  | case5 mode word c d rest _ _ ih => exact ih (.inr (by simp)) h

theorem ne_nil_of_mem_words {cs w : List Char} (h : w ∈ words cs) : w ≠ [] := by
  obtain ⟨piece,_,hw⟩ := List.mem_flatMap.mp h
  exact ne_nil_of_mem_humps (.inl rfl) hw

namespace LowWord
variable {w : List Char}

theorem not_separated (h : LowWord w) : ∀ c ∈ w, (! isAlphanumeric c) = false := by
  intro c hc
  rw [isAlphanumeric_of_isAlphanum (h.alnum c hc)]
  rfl

theorem not_isEmpty (h : LowWord w) : (! w.isEmpty) = true := by
  simpa using h.ne_nil

theorem words_append (h : LowWord w) (rest : List Char) :
    words (w ++ '_' :: rest) = w :: words rest := by
  rw [words, pieces, List.splitOnP_append_cons_of_forall_mem h.not_separated '_' (by decide),
    List.filter_cons, if_pos h.not_isEmpty, List.flatMap_cons,
    humps_of_not_isUpper .start [] h.ne_nil h.not_isUpper]
  rfl

theorem words_eq (h : LowWord w) : words w = [w] := by
  rw [words, pieces, List.splitOnP_eq_singleton h.not_separated, List.filter_cons,
    if_pos h.not_isEmpty, List.filter_nil, List.flatMap_cons,
    humps_of_not_isUpper .start [] h.ne_nil h.not_isUpper]
  rfl

end LowWord

/-- Words in lower case with underscores between them. -/
def Joined (cs : List Char) : Prop :=
  ∃ ws : List (List Char), ws ≠ [] ∧ (∀ w ∈ ws, LowWord w) ∧ cs = ['_'].intercalate ws

theorem words_intercalate {ws : List (List Char)} (h : ∀ w ∈ ws, LowWord w) :
    words (['_'].intercalate ws) = ws := by
  induction ws with
  | nil => rfl
  | cons w ws ih =>
    have hw := h w List.mem_cons_self
    cases ws with
    | nil => rw [List.intercalate_singleton, hw.words_eq]
    | cons v vs =>
      rw [List.intercalate_cons_cons, List.append_assoc, List.singleton_append, hw.words_append,
        ih fun x hx => h x (List.mem_cons_of_mem _ hx)]

namespace Joined
variable {cs : List Char}

/-- Joined words are their own snake case. -/
theorem snakeCase_eq (h : Joined cs) : snakeCase cs = cs := by
  obtain ⟨ws,_,hlow,rfl⟩ := h
  have hlower : ws.map lowerWord = ws :=
    (List.map_congr_left fun w hw => (hlow w hw).lowerWord_eq).trans (List.map_id ws)
  rw [snakeCase, words_intercalate hlow, hlower]

theorem ne_nil (h : Joined cs) : cs ≠ [] := by
  obtain ⟨ws,hne,hlow,rfl⟩ := h
  cases ws with
  | nil => exact absurd rfl hne
  | cons w ws =>
    have hw := (hlow w List.mem_cons_self).ne_nil
    cases ws with
    | nil => rwa [List.intercalate_singleton]
    | cons v vs => simp [List.intercalate_cons_cons]

theorem cons {w : List Char} (hw : LowWord w) (h : Joined cs) : Joined (w ++ '_' :: cs) := by
  obtain ⟨ws,hne,hlow,rfl⟩ := h
  refine ⟨w :: ws,by simp,List.forall_mem_cons.mpr ⟨hw,hlow⟩,?_⟩
  cases ws with
  | nil => exact absurd rfl hne
  | cons v vs => rw [List.intercalate_cons_cons, List.append_assoc, List.singleton_append]

theorem mem_cases (h : Joined cs) {c : Char} (hc : c ∈ cs) :
    c = '_' ∨ c.isAlphanum = true ∧ c.isUpper = false := by
  obtain ⟨ws,_,hlow,rfl⟩ := h
  clear * - hlow hc
  induction ws with
  | nil => cases hc
  | cons w ws ih =>
    have hw := hlow w List.mem_cons_self
    have hrest := ih fun x hx => hlow x (List.mem_cons_of_mem _ hx)
    cases ws with
    | nil =>
      rw [List.intercalate_singleton] at hc
      exact .inr ⟨hw.alnum c hc,hw.low c hc⟩
    | cons v vs =>
      rw [List.intercalate_cons_cons, List.append_assoc, List.singleton_append,
        List.mem_append] at hc
      rcases hc with hc | hc
      · exact .inr ⟨hw.alnum c hc,hw.low c hc⟩
      · exact (List.mem_cons.mp hc).imp_right hrest |>.elim .inl id

end Joined

/-- The snake case of letters, digits and underscores is empty or joined words. -/
theorem joined_snakeCase {cs : List Char} (h : Wordlike cs) :
    snakeCase cs = [] ∨ Joined (snakeCase cs) := by
  by_cases hwords : words cs = []
  · left
    rw [snakeCase, hwords]
    rfl
  · refine .inr ⟨(words cs).map lowerWord,by simpa using hwords,?_,rfl⟩
    intro w hw
    obtain ⟨word,hword,rfl⟩ := List.mem_map.mp hw
    refine .of_lowerWord (ne_nil_of_mem_words hword) fun c hc => ?_
    obtain ⟨hmem,halpha⟩ := of_mem_words hword hc
    refine (h c hmem).resolve_right ?_
    rintro rfl
    exact absurd halpha (by decide)

end ClientGen.Text

namespace ClientGen.Ident
open Text (Joined LowWord)

theorem underscored_of_wordlike {cs : List Char} (h : Wordlike cs) : underscored cs = cs := by
  refine (List.map_congr_left fun c hc => ?_).trans (List.map_id cs)
  rcases h c hc with hc | rfl
  · exact if_pos hc
  · rfl

/-- A name in snake case is joined words that do not begin with a digit. -/
theorem joined_snake (name : String) :
    Joined (snake name).toList ∧ startsWithDigit (snake name).toList = false := by
  have hcase := Text.joined_snakeCase (underscored_wordlike name.toList)
  unfold snake
  generalize Text.snakeCase (underscored name.toList) = cs at hcase ⊢
  split
  · have hvalue : LowWord ['v','a','l','u','e'] := ⟨by simp,by simp,by simp⟩
    exact ⟨⟨[_],by simp,by simpa using hvalue,rfl⟩,rfl⟩
  · rename_i hne
    have hjoined := hcase.resolve_left hne
    split
    · have hn : LowWord ['n'] := ⟨by simp,by simp,by simp⟩
      rw [String.toList_append, String.toList_ofList (l := cs)]
      exact ⟨hjoined.cons hn,rfl⟩
    · rename_i hdigit
      rw [String.toList_ofList]
      exact ⟨hjoined,Bool.eq_false_iff.mpr hdigit⟩

theorem snake_of_joined {name : String} (h : Joined name.toList)
    (hd : startsWithDigit name.toList = false) : snake name = name := by
  have hword : Wordlike name.toList := by
    intro c hc
    exact (h.mem_cases hc).symm.imp_left And.left
  have hcase : Text.snakeCase (underscored name.toList) = name.toList := by
    rw [underscored_of_wordlike hword, h.snakeCase_eq]
  rw [snake, hcase]
  split
  · rename_i hnil
    exact absurd hnil h.ne_nil
  · rw [hd, if_neg Bool.false_ne_true, String.ofList_toList]

/-- Snake case changes nothing that is in snake case. -/
theorem snake_snake (name : String) : snake (snake name) = snake name :=
  snake_of_joined (joined_snake name).1 (joined_snake name).2

theorem lowerAscii_snake (name : String) : Text.lowerAscii (snake name) = snake name := by
  rw [Text.lowerAscii, Text.map_toLower_of_low, String.ofList_toList]
  intro c hc
  rcases (joined_snake name).1.mem_cases hc with rfl | h
  · decide
  · exact h.2

/-! ## Names of bindings -/

theorem unraw_bindingName_ne_empty (name : String) : unraw (bindingName name) ≠ "" := by
  intro h
  have hnil : (snake name).toList ≠ [] := (joined_snake name).1.ne_nil
  rw [unraw_bindingName] at h
  split at h
  · exact absurd (congrArg String.toList h) (by simp)
  · exact hnil (by rw [h]; rfl)

/-- No snake case is one of the words that get an underscore instead of the raw form, with this
underscore. -/
theorem snake_ne_underscored {a : String} (h : a ∈ neverRaw) (b : String) : snake b ≠ a ++ "_" := by
  -- snake case would leave the underscored word as it is, but drops its underscore
  have hall : neverRaw.all (fun w => snake (w ++ "_") != w ++ "_") = true := by decide +kernel
  intro he
  have hne := List.all_eq_true.mp hall a h
  rw [← he, snake_snake] at hne
  simp at hne

/-- Modules and functions have different names as soon as their snake cases differ. -/
theorem bindingName_inj {a b : String} : bindingName a = bindingName b ↔ snake a = snake b := by
  refine ⟨fun h => ?_,fun h => by rw [bindingName, bindingName, h]⟩
  have hbare := congrArg unraw h
  rw [unraw_bindingName, unraw_bindingName] at hbare
  split at hbare
  · rename_i ha
    split at hbare
    · exact (String.append_left_inj "_").mp hbare
    · exact absurd hbare.symm (snake_ne_underscored (by simpa using ha) b)
  · split at hbare
    · rename_i hb
      exact absurd hbare (snake_ne_underscored (by simpa using hb) a)
    · exact hbare

end ClientGen.Ident
