import ClientGen.Proofs.Ident.Reserve

/-! # Letters of identifiers

Names of bindings consist of ASCII letters, digits and underscores, but for the mark of the raw
form. So they contain no dot, and none can be taken for a path into a value.
-/
namespace ClientGen

/-- Letters, digits and underscores. -/
def Wordlike (cs : List Char) : Prop :=
  ∀ c ∈ cs, c.isAlphanum = true ∨ c = '_'

namespace Wordlike
variable {cs ds : List Char}

theorem append (hc : Wordlike cs) (hd : Wordlike ds) : Wordlike (cs ++ ds) := by
  intro c h
  rcases List.mem_append.mp h with h | h
  · exact hc c h
  · exact hd c h

theorem intercalate {sep : List Char} (hs : Wordlike sep) {ws : List (List Char)}
    (h : ∀ w ∈ ws, Wordlike w) : Wordlike (sep.intercalate ws) := by
  induction ws with
  | nil => simp [Wordlike]
  | cons w ws ih =>
    have hw := h w List.mem_cons_self
    cases ws with
    | nil => rwa [List.intercalate_singleton]
    | cons v vs =>
      rw [List.intercalate_cons_cons]
      exact (hw.append hs).append (ih fun x hx => h x (List.mem_cons_of_mem _ hx))

theorem dot_not_mem (h : Wordlike cs) : '.' ∉ cs := by
  intro hd
  rcases h _ hd with h | h <;> exact absurd h (by decide)

end Wordlike

namespace Text

/-! ## Words -/

theorem isAscii_of_isAlphanum {c : Char} (h : c.isAlphanum = true) : isAscii c = true := by
  simp only [Char.isAlphanum, Char.isAlpha, Char.isUpper, Char.isLower, Char.isDigit,
    Bool.or_eq_true, Bool.and_eq_true, decide_eq_true_eq, UInt32.le_iff_toNat_le] at h
  have hc : c.toNat = c.val.toNat := rfl
  have hZ : 'Z'.val.toNat = 90 := rfl
  have hz : 'z'.val.toNat = 122 := rfl
  have h9 : '9'.val.toNat = 57 := rfl
  simp only [isAscii, decide_eq_true_eq]
  omega

theorem not_isUpper_of_isDigit {c : Char} (h : c.isDigit = true) : ¬ c.isUpper = true := by
  simp only [Char.isUpper, Char.isDigit, Bool.and_eq_true, decide_eq_true_eq,
    UInt32.le_iff_toNat_le] at h ⊢
  have hA : 'A'.val.toNat = 65 := rfl
  have h9 : '9'.val.toNat = 57 := rfl
  omega

theorem isAlphanum_toLower {c : Char} (h : c.isAlphanum = true) : c.toLower.isAlphanum = true := by
  rw [Char.isAlphanum, Bool.or_eq_true] at h ⊢
  rcases h with h | h
  · exact .inl (by rwa [Char.isAlpha_toLower_eq_isAlpha])
  · exact .inr (by rwa [Char.toLower_eq_of_not_isUpper (not_isUpper_of_isDigit h)])

theorem subset_of_mem_humps {mode : WordMode} {word cs w : List Char} (h : w ∈ humps mode word cs) :
    w ⊆ word ++ cs := by
  fun_induction humps mode word cs with
  | case1 => simp at h
  | case2 mode word c => rw [List.mem_singleton.mp h]; exact List.Subset.refl _
  | case3 mode word c d rest _ ih =>
    rcases List.mem_cons.mp h with rfl | h
    · intro x hx
      simp only [List.mem_append, List.mem_cons, List.not_mem_nil, or_false] at hx ⊢
      tauto
    · intro x hx
      exact List.mem_append_right _ (List.mem_cons_of_mem _ (ih h hx))
  | case4 mode word c d rest _ _ ih =>
    rcases List.mem_cons.mp h with rfl | h
    · exact List.subset_append_left _ _
    · exact List.Subset.trans (ih h) (List.subset_append_right _ _)
  | case5 mode word c d rest _ _ ih =>
    refine List.Subset.trans (ih h) ?_
    rw [List.append_assoc]
    exact List.Subset.refl _

theorem of_mem_splitOnP {isSep : Char → Bool} {cs piece : List Char}
    (h : piece ∈ cs.splitOnP isSep) {c : Char} (hc : c ∈ piece) : c ∈ cs ∧ isSep c = false := by
  induction cs generalizing piece with
  | nil =>
    rw [List.splitOnP_nil, List.mem_singleton] at h
    simp [h] at hc
  | cons d cs ih =>
    rw [List.splitOnP_cons_eq_if_modifyHead] at h
    split at h
    · rcases List.mem_cons.mp h with rfl | h
      · simp at hc
      · exact ⟨List.mem_cons_of_mem _ (ih h hc).1,(ih h hc).2⟩
    · rename_i hd
      cases hs : cs.splitOnP isSep with
      | nil => exact absurd hs (List.splitOnP_ne_nil _ _)
      | cons first rest =>
        rw [hs] at h ih
        rcases List.mem_cons.mp h with rfl | h
        · rcases List.mem_cons.mp hc with rfl | hc
          · exact ⟨List.mem_cons_self,by simpa using hd⟩
          · have hc' := ih List.mem_cons_self hc
            exact ⟨List.mem_cons_of_mem _ hc'.1,hc'.2⟩
        · have hc' := ih (List.mem_cons_of_mem _ h) hc
          exact ⟨List.mem_cons_of_mem _ hc'.1,hc'.2⟩

theorem of_mem_words {cs w : List Char} (h : w ∈ words cs) {c : Char} (hc : c ∈ w) :
    c ∈ cs ∧ isAlphanumeric c = true := by
  obtain ⟨piece,hp,hw⟩ := List.mem_flatMap.mp h
  have hmem := subset_of_mem_humps hw hc
  obtain ⟨hmem,hsep⟩ := of_mem_splitOnP (List.mem_filter.mp hp).1 hmem
  exact ⟨hmem,by simpa using hsep⟩

theorem lowerWord_wordlike {w : List Char} (h : ∀ c ∈ w, c.isAlphanum = true) :
    Wordlike (lowerWord w) := by
  have hlower {c : Char} (hc : c.isAlphanum = true) : Wordlike (toLower c) := by
    intro d hd
    rw [toLower, if_pos (isAscii_of_isAlphanum hc), List.mem_singleton] at hd
    rw [hd]
    exact .inl (isAlphanum_toLower hc)
  fun_induction lowerWord w with
  | case1 => simp [Wordlike]
  | case2 => exact absurd (h 'Σ' List.mem_cons_self) (by decide)
  | case3 c _ => exact hlower (h c List.mem_cons_self)
  | case4 c rest _ ih =>
    exact (hlower (h c List.mem_cons_self)).append (ih fun d hd => h d (List.mem_cons_of_mem _ hd))

end Text

namespace Ident

theorem underscored_wordlike (cs : List Char) : Wordlike (underscored cs) := by
  intro c hc
  obtain ⟨d,_,rfl⟩ := List.mem_map.mp hc
  split
  · exact .inl ‹_›
  · exact .inr rfl

theorem snakeCase_wordlike {cs : List Char} (h : Wordlike cs) : Wordlike (Text.snakeCase cs) := by
  refine Wordlike.intercalate (by simp [Wordlike]) fun w hw => ?_
  obtain ⟨word,hword,rfl⟩ := List.mem_map.mp hw
  refine Text.lowerWord_wordlike fun c hc => ?_
  obtain ⟨hmem,halpha⟩ := Text.of_mem_words hword hc
  refine (h c hmem).resolve_right ?_
  rintro rfl
  exact absurd halpha (by decide)

theorem snake_wordlike (name : String) : Wordlike (snake name).toList := by
  have hcase := snakeCase_wordlike (underscored_wordlike name.toList)
  unfold snake
  generalize Text.snakeCase (underscored name.toList) = cs at hcase ⊢
  split
  · simp [Wordlike]
  · split
    · rw [String.toList_append, String.toList_ofList (l := cs)]
      exact Wordlike.append (by simp [Wordlike]) hcase
    · rwa [String.toList_ofList]

/-- No name of a binding has a dot in it. -/
theorem dot_not_mem_bindingName (name : String) : '.' ∉ (bindingName name).toList := by
  have hsnake := (snake_wordlike name).dot_not_mem
  unfold bindingName escapeKeyword
  split
  · simpa using hsnake
  · split
    · simpa using hsnake
    · exact hsnake

theorem dot_not_mem_unraw {name : String} (h : '.' ∉ name.toList) : '.' ∉ (unraw name).toList := by
  unfold unraw
  split
  · rename_i rest hrest
    rw [String.toList_ofList]
    intro hdot
    rw [← List.append_eq_of_isPrefixOf?_eq_some hrest] at h
    exact h (List.mem_append_right _ hdot)
  · exact h

theorem exists_eq_firstFree (candidate : Nat → String) (used : List String) :
    ∃ n, firstFree candidate used = candidate n := by
  simp only [firstFree]
  cases ht : ((List.range (used.length + 1)).map fun i => candidate (i + 2)).find?
      (! used.contains ·) with
  | none => exact ⟨_,rfl⟩
  | some t =>
    obtain ⟨i,_,rfl⟩ := List.mem_map.mp (List.mem_of_find?_eq_some ht)
    exact ⟨_,rfl⟩

theorem dot_not_mem_reserve {base : String} (h : '.' ∉ base.toList) (used : List String) :
    '.' ∉ (reserve base used).1.toList := by
  simp only [reserve]
  split
  · obtain ⟨n,hn⟩ := exists_eq_firstFree (fun n => unraw base ++ "_" ++ toString n) used
    have hdigits : '.' ∉ Nat.toDigits 10 n := by
      intro hdot
      exact absurd (Nat.isDigit_of_mem_toDigits (by decide) (by decide) hdot) (by decide)
    rw [hn]
    simp [dot_not_mem_unraw h, hdigits]
  · exact h

theorem dot_not_mem_reserveAll {used bases : List String}
    (h : ∀ base ∈ bases, '.' ∉ base.toList) {name : String}
    (hn : name ∈ reserveAll reserve used bases) : '.' ∉ name.toList :=
  of_mem_reserveAll (fun _ used hbase => dot_not_mem_reserve hbase used) h hn

end Ident
end ClientGen
