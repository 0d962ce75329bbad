import ClientGen.Proofs.Ident.Escape

/-! # Names of types and variants

They consist of ASCII letters and digits, however the words of a name are told apart, and keep all
digits of the name. So none is in the raw form, and the numbers that a scope appends do not change
that.
-/
namespace ClientGen

namespace Text

/-! ## Capitals -/

theorem isAlphanum_toUpper {c : Char} (h : c.isAlphanum = true) : c.toUpper.isAlphanum = true := by
  rw [Char.isAlphanum, Bool.or_eq_true] at h ⊢
  rcases h with h | h
  · exact .inl (by rwa [Char.isAlpha_toUpper_eq_isAlpha])
  · have hlower : ¬ c.isLower = true := by
      simp only [Char.isLower, Char.isDigit, Bool.and_eq_true, decide_eq_true_eq,
        UInt32.le_iff_toNat_le] at h ⊢
      have ha : 'a'.val.toNat = 97 := rfl
      have h9 : '9'.val.toNat = 57 := rfl
      omega
    exact .inr (by rwa [Char.toUpper_eq_of_not_isLower hlower])

/-! ## Pieces -/

/-- The pieces of a text make up the text without its separators. -/
theorem flatten_pieces (isSep : Char → Bool) (cs : List Char) :
    (pieces isSep cs).flatten = cs.filter (! isSep ·) := by
  rw [pieces, List.flatten_filter_not_isEmpty]
  induction cs with
  | nil => rfl
  | cons c cs ih =>
    rw [List.splitOnP_cons_eq_if_modifyHead, List.filter_cons]
    obtain ⟨first,rest,hs⟩ := List.exists_cons_of_ne_nil (List.splitOnP_ne_nil isSep cs)
    rw [hs] at ih ⊢
    cases hc : isSep c with
    | true => simpa using ih
    | false => simpa using ih

end Text

namespace Ident
open Text (pieces)

/-- ASCII letters and digits only. -/
def Alnum (cs : List Char) : Prop :=
  ∀ c ∈ cs, c.isAlphanum = true

namespace Alnum
variable {cs ds : List Char}

theorem of_all (h : cs.all Char.isAlphanum = true) : Alnum cs :=
  List.all_eq_true.mp h

theorem wordlike (h : Alnum cs) : Wordlike cs := by
  intro c hc
  exact .inl (h c hc)

theorem append (hc : Alnum cs) (hd : Alnum ds) : Alnum (cs ++ ds) := by
  intro c h
  rcases List.mem_append.mp h with h | h
  · exact hc c h
  · exact hd c h

theorem flatMap {α : Type} {f : α → List Char} {ws : List α}
    (h : ∀ w ∈ ws, Alnum (f w)) : Alnum (ws.flatMap f) := by
  intro c hc
  obtain ⟨w,hw,hmem⟩ := List.mem_flatMap.mp hc
  exact h w hw c hmem

theorem lowerAll (h : Alnum cs) : Alnum (Ident.lowerAll cs) := by
  intro c hc
  obtain ⟨d,hd,rfl⟩ := List.mem_map.mp hc
  exact Text.isAlphanum_toLower (h d hd)

theorem capitalize (h : Alnum cs) : Alnum (Ident.capitalize cs) := by
  cases cs with
  | nil => exact h
  | cons c rest =>
    have hc := h c List.mem_cons_self
    have hfirst : Alnum (Text.toUpper c) := by
      intro d hd
      rw [Text.toUpper, if_pos (Text.isAscii_of_isAlphanum hc), List.mem_singleton] at hd
      rw [hd]
      exact Text.isAlphanum_toUpper hc
    have hrest : Alnum rest := fun d hd => h d (List.mem_cons_of_mem c hd)
    exact hfirst.append hrest

theorem legalStart {reserved : List Char} (hr : Alnum reserved) (h : Alnum cs) :
    Alnum (Ident.legalStart reserved cs) := by
  unfold Ident.legalStart
  split
  · exact .of_all (by decide)
  · split
    · have hn : Alnum ['N'] := .of_all (by decide)
      exact hn.append h
    · split
      · exact hr
      · exact h

end Alnum

/-- Pieces between separators are of letters and digits if all else is. -/
theorem alnum_of_mem_pieces {isSep : Char → Bool} {cs w : List Char}
    (h : ∀ c ∈ cs, isSep c = false → c.isAlphanum = true) (hw : w ∈ pieces isSep cs) :
    Alnum w := by
  intro c hc
  obtain ⟨hmem,hsep⟩ := Text.of_mem_splitOnP (List.mem_filter.mp hw).1 hc
  exact h c hmem hsep

/-! ## First characters -/

/-- Either there is no first character, or it has the property. -/
def Begins (p : Char → Prop) (cs : List Char) : Prop :=
  ∀ c ∈ cs.head?, p c

namespace Begins
variable {p : Char → Prop} {cs ds : List Char}

theorem append (hc : Begins p cs) (hd : Begins p ds) : Begins p (cs ++ ds) := by
  cases cs with
  | nil => exact hd
  | cons c rest => exact hc

theorem flatMap {α : Type} {f : α → List Char} {xs : List α} (h : ∀ x ∈ xs, Begins p (f x)) :
    Begins p (xs.flatMap f) := by
  induction xs with
  | nil => simp [Begins]
  | cons x rest ih =>
    rw [List.flatMap_cons]
    exact (h x List.mem_cons_self).append (ih fun y hy => h y (List.mem_cons_of_mem x hy))

end Begins

/-- Letters and digits with no small letter in front. -/
structure Capitalized (cs : List Char) : Prop where
  alnum : Alnum cs
  notLower : Begins (·.isLower = false) cs

theorem capitalized_capitalize {cs : List Char} (h : Alnum cs) :
    Capitalized (capitalize cs) := by
  refine ⟨h.capitalize,?_⟩
  cases cs with
  | nil => simp [Begins, capitalize]
  | cons c rest =>
    have hfirst : Text.toUpper c = [c.toUpper] :=
      if_pos (Text.isAscii_of_isAlphanum (h c List.mem_cons_self))
    rw [capitalize, hfirst]
    simp [Begins, Char.isLower_toUpper_eq_false]

theorem capitalized_variantWord {cs : List Char} (h : Alnum cs) :
    Capitalized (variantWord cs) := by
  unfold variantWord
  split
  · exact capitalized_capitalize h
  · exact capitalized_capitalize h.lowerAll

theorem Capitalized.flatMap {α : Type} {f : α → List Char} {xs : List α}
    (h : ∀ x ∈ xs, Capitalized (f x)) : Capitalized (xs.flatMap f) :=
  ⟨.flatMap fun x hx => (h x hx).alnum,.flatMap fun x hx => (h x hx).notLower⟩

/-! ## Names -/

/-- What the name of a variant is before its start is made legal. -/
theorem variantName_eq (name : String) : ∃ joined,
    (variantName name).toList = legalStart "SelfValue".toList joined ∧ Capitalized joined := by
  have hcleaned : ∀ c ∈ underscored name.toList, (c == '_') = false → c.isAlphanum = true := by
    intro c hc hne
    have hword := underscored_wordlike name.toList c hc
    exact hword.resolve_right (by simpa using hne)
  rw [variantName, String.toList_ofList]
  refine ⟨_,rfl,?_⟩
  split
  · apply Capitalized.flatMap
    intro w hw
    exact capitalized_variantWord (alnum_of_mem_pieces hcleaned hw)
  · rename_i hnone
    refine capitalized_capitalize fun c hc => hcleaned c hc ?_
    rw [beq_eq_false_iff_ne]
    rintro rfl
    exact hnone (List.contains_iff_mem.mpr hc)

theorem alnum_variantName (name : String) : Alnum (variantName name).toList := by
  obtain ⟨joined,he,hjoined⟩ := variantName_eq name
  rw [he]
  exact .legalStart (.of_all (by decide)) hjoined.alnum

/-- What symbols are spelled out to leaves nothing but letters, digits and joiners. -/
theorem alnum_of_mem_spell {c d : Char} (hd : d ∈ spell c) (hj : isJoiner d = false) :
    d.isAlphanum = true := by
  have hword {text : List Char} (hall : text.all (fun c => c.isAlphanum || isJoiner c) = true)
      (hd : d ∈ text) : d.isAlphanum = true := by
    simpa [hj] using List.all_eq_true.mp hall d hd
  unfold spell at hd
  split at hd
  · exact hword (by decide) hd
  split at hd
  · exact hword (by decide) hd
  split at hd
  · exact hword (by decide) hd
  split at hd
  · exact hword (by decide) hd
  split at hd
  · rename_i hc
    rw [List.mem_singleton.mp hd] at hj ⊢
    simpa [hj] using hc
  · exact hword (by decide) hd

/-- What a type name is before its start is made legal. -/
theorem typeName_eq (name : String) : ∃ joined,
    (typeName name).toList = legalStart "SelfType".toList joined ∧ Capitalized joined := by
  have hspelled : ∀ c ∈ name.toList.flatMap spell, isJoiner c = false → c.isAlphanum = true := by
    intro c hc hj
    obtain ⟨_,_,hmem⟩ := List.mem_flatMap.mp hc
    exact alnum_of_mem_spell hmem hj
  rw [typeName, String.toList_ofList]
  refine ⟨_,rfl,?_⟩
  split
  · apply Capitalized.flatMap
    intro w hw
    exact capitalized_capitalize (alnum_of_mem_pieces hspelled hw).lowerAll
  · rename_i hnone
    refine capitalized_capitalize fun c hc => hspelled c hc ?_
    by_contra hj
    exact hnone (List.any_eq_true.mpr ⟨c,hc,by simpa using hj⟩)

theorem alnum_typeName (name : String) : Alnum (typeName name).toList := by
  obtain ⟨joined,he,hjoined⟩ := typeName_eq name
  rw [he]
  exact .legalStart (.of_all (by decide)) hjoined.alnum

/-! ## Digits -/

/-- The digits of a text, in order. -/
def digits (cs : List Char) : List Char :=
  cs.filter Char.isDigit

theorem digits_append (cs ds : List Char) : digits (cs ++ ds) = digits cs ++ digits ds :=
  List.filter_append ..

theorem digits_flatMap {α : Type} (f : α → List Char) (xs : List α) :
    digits (xs.flatMap f) = xs.flatMap fun x => digits (f x) :=
  List.filter_flatMap ..

theorem isDigit_eq_false_of_isAlpha {c : Char} (h : c.isAlpha = true) : c.isDigit = false := by
  rw [Bool.eq_false_iff]
  intro hd
  simp only [Char.isAlpha, Char.isUpper, Char.isLower, Char.isDigit, Bool.or_eq_true,
    Bool.and_eq_true, decide_eq_true_eq, UInt32.le_iff_toNat_le] at h hd
  have hA : 'A'.val.toNat = 65 := rfl
  have ha : 'a'.val.toNat = 97 := rfl
  have h9 : '9'.val.toNat = 57 := rfl
  omega

/-- A change of case that leaves all but letters alone keeps the digits. -/
theorem digits_map {f : Char → Char} (hletter : ∀ c, (f c).isAlpha = c.isAlpha)
    (hother : ∀ c, c.isAlpha = false → f c = c) (cs : List Char) :
    digits (cs.map f) = digits cs := by
  induction cs with
  | nil => rfl
  | cons c cs ih =>
    have hfirst : digits [f c] = digits [c] := by
      cases hc : c.isAlpha with
      | true =>
        have hfc : (f c).isAlpha = true := by rw [hletter, hc]
        simp [digits, isDigit_eq_false_of_isAlpha hc, isDigit_eq_false_of_isAlpha hfc]
      | false => rw [hother c hc]
    rw [List.map_cons, ← List.singleton_append, digits_append, hfirst, ih, ← digits_append,
      List.singleton_append]

theorem digits_lowerAll (cs : List Char) : digits (lowerAll cs) = digits cs := by
  refine digits_map Char.isAlpha_toLower_eq_isAlpha ?_ cs
  intro c hc
  refine Char.toLower_eq_of_not_isUpper fun hupper => ?_
  rw [Char.isAlpha, hupper, Bool.true_or] at hc
  cases hc

theorem digits_capitalize {cs : List Char} (h : Alnum cs) :
    digits (capitalize cs) = digits cs := by
  cases cs with
  | nil => rfl
  | cons c rest =>
    have hfirst : Text.toUpper c = [c].map Char.toUpper :=
      if_pos (Text.isAscii_of_isAlphanum (h c List.mem_cons_self))
    have hother : ∀ c : Char, c.isAlpha = false → c.toUpper = c := by
      intro c hc
      refine Char.toUpper_eq_of_not_isLower fun hlower => ?_
      rw [Char.isAlpha, hlower, Bool.or_true] at hc
      cases hc
    rw [capitalize, hfirst, digits_append, digits_map Char.isAlpha_toUpper_eq_isAlpha hother,
      ← digits_append, List.singleton_append]

theorem digits_pieces {isSep : Char → Bool} (h : ∀ c, isSep c = true → c.isDigit = false)
    (cs : List Char) : (pieces isSep cs).flatMap digits = digits cs := by
  have hkept : (fun c : Char => c.isDigit && !isSep c) = Char.isDigit := by
    funext c
    cases hc : isSep c with
    | true => rw [h c hc, Bool.false_and]
    | false => rw [Bool.not_false, Bool.and_true]
  calc (pieces isSep cs).flatMap digits
      = digits (pieces isSep cs).flatten := by
        rw [List.flatMap_def]
        exact List.filter_flatten.symm
    _ = digits cs := by rw [Text.flatten_pieces, digits, List.filter_filter, hkept, digits]

theorem digits_legalStart {reserved : List Char} (hr : digits reserved = []) (cs : List Char) :
    digits (legalStart reserved cs) = digits cs := by
  unfold legalStart
  split
  · rfl
  · split
    · rfl
    · split
      · rename_i hself
        rw [hr, hself]
        rfl
      · rfl

theorem digits_spell (c : Char) : digits (spell c) = digits [c] := by
  unfold spell
  split
  · rename_i hc
    rw [hc]
    rfl
  split
  · rename_i hc
    rw [hc]
    rfl
  split
  · rename_i hc
    rw [hc]
    rfl
  split
  · rename_i hc
    rw [hc]
    rfl
  split
  · rfl
  · rename_i hc
    have hdigit : c.isDigit = false := by
      simp only [Char.isAlphanum, Bool.or_eq_true, not_or, Bool.not_eq_true] at hc
      exact hc.1.2
    simp [digits, hdigit]

/-- A type name has the digits of what it is made from. -/
theorem digits_typeName (name : String) : digits (typeName name).toList = digits name.toList := by
  have hspelled : digits (name.toList.flatMap spell) = digits name.toList := by
    simp only [digits_flatMap, digits_spell]
    rw [← digits_flatMap, List.flatMap_singleton']
  have halnum : ∀ c ∈ name.toList.flatMap spell, isJoiner c = false → c.isAlphanum = true := by
    intro c hc hj
    obtain ⟨_,_,hmem⟩ := List.mem_flatMap.mp hc
    exact alnum_of_mem_spell hmem hj
  have hjoiner : ∀ c, isJoiner c = true → c.isDigit = false := by
    intro c hc
    simp only [isJoiner, Bool.or_eq_true, beq_iff_eq] at hc
    rcases hc with (rfl | rfl) | rfl <;> rfl
  rw [typeName, String.toList_ofList, digits_legalStart (by decide), ← hspelled]
  split
  · rw [digits_flatMap, ← digits_pieces hjoiner]
    refine List.flatMap_congr fun w hw => ?_
    have hw := alnum_of_mem_pieces halnum hw
    exact (digits_capitalize hw.lowerAll).trans (digits_lowerAll w)
  · rename_i hnone
    refine digits_capitalize fun c hc => halnum c hc ?_
    by_contra hj
    exact hnone (List.any_eq_true.mpr ⟨c,hc,by simpa using hj⟩)

/-! ## Names handed out -/

/-- The name begins with the mark of the raw form. -/
def IsRaw (name : String) : Prop :=
  ∃ k, name = "r#" ++ k

theorem not_isRaw_of_wordlike {name : String} (h : Wordlike name.toList) : ¬ IsRaw name := by
  rintro ⟨k,hk⟩
  exact ne_raw_of_wordlike h k hk

theorem unraw_of_not_isRaw {name : String} (h : ¬ IsRaw name) : unraw name = name := by
  unfold unraw
  split
  · rename_i rest hrest
    have happend := List.append_eq_of_isPrefixOf?_eq_some hrest
    refine absurd ⟨String.ofList rest,?_⟩ h
    apply String.toList_inj.mp
    rw [String.toList_append, String.toList_ofList (l := rest)]
    exact happend.symm
  · rfl

/-- A number at the end does not bring the name into the raw form. -/
theorem not_isRaw_append {name : String} (h : ¬ IsRaw name) (n : Nat) :
    ¬ IsRaw (name ++ toString n) := by
  rintro ⟨k,hk⟩
  have hchars : name.toList ++ (toString n).toList = 'r' :: '#' :: k.toList := by
    rw [← String.toList_append, hk, String.toList_append]
    rfl
  have hmark : '#' ∉ (toString n).toList := by
    intro hmem
    exact absurd (wordlike_digits n '#' hmem) (by decide)
  match hname : name.toList with
  | [] =>
    rw [hname, List.nil_append] at hchars
    exact hmark (hchars ▸ by simp)
  | [c] =>
    rw [hname, List.cons_append, List.nil_append] at hchars
    exact hmark ((List.cons.inj hchars).2 ▸ by simp)
  | c :: d :: rest =>
    rw [hname, List.cons_append, List.cons_append] at hchars
    obtain ⟨rfl,hrest⟩ := List.cons.inj hchars
    obtain ⟨rfl,_⟩ := List.cons.inj hrest
    refine h ⟨String.ofList rest,?_⟩
    apply String.toList_inj.mp
    rw [hname, String.toList_append, String.toList_ofList (l := rest)]
    rfl

/-- What is handed out for a base is the base itself or the base with a number. -/
theorem reserveType_cases (base : String) (used : List String) : (reserveType base used).1 = base ∨
    ∃ n : Nat, (reserveType base used).1 = base ++ toString n := by
  simp only [reserveType]
  split
  · exact .inr (exists_eq_firstFree (fun n => base ++ toString n) used)
  · exact .inl rfl

theorem not_isRaw_reserveType {base : String} (h : ¬ IsRaw base) (used : List String) :
    ¬ IsRaw (reserveType base used).1 := by
  rcases reserveType_cases base used with he | ⟨n,he⟩
  · rwa [he]
  · rw [he]
    exact not_isRaw_append h n

end Ident
end ClientGen
