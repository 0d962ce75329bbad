import ClientGen.Proofs.Ident.Capitals

/-! # Names that stay as they are

Each way to make an identifier has its fixed names: letters and digits with a capital in front for
types and variants, joined words for bindings. Whatever it makes is one of them, so a name that was
made once is not made into another.
-/
namespace ClientGen.Ident

namespace Capital
variable {cs reserved : List Char}

theorem capitalize_eq (h : Capital cs) : capitalize cs = cs := by
  obtain ⟨c,rest,rfl,hupper⟩ := h.first
  have halnum := h.alnum c List.mem_cons_self
  have hfirst : Text.toUpper c = [c.toUpper] := if_pos (Text.isAscii_of_isAlphanum halnum)
  rw [capitalize, hfirst, Char.toUpper_eq_of_not_isLower (Char.not_isLower_of_isUpper hupper)]
  rfl

theorem legalStart_eq (h : Capital cs) : legalStart reserved cs = cs := by
  obtain ⟨c,rest,rfl,hupper⟩ := h.first
  have hdigit : c.isDigit = false := by
    refine isDigit_eq_false_of_isAlpha ?_
    rw [Char.isAlpha, hupper, Bool.true_or]
  rw [legalStart, if_neg (Bool.eq_false_iff.mp hdigit), if_neg h.ne_self]

end Capital

/-! ## Types -/

theorem spell_of_isAlphanum {c : Char} (h : c.isAlphanum = true) : spell c = [c] := by
  have hne {d : Char} (hd : d.isAlphanum = false) : c ≠ d := by
    rintro rfl
    exact Bool.false_ne_true (hd.symm.trans h)
  rw [spell, if_neg (hne (by decide)), if_neg (hne (by decide)), if_neg (hne (by decide)),
    if_neg (hne (by decide)), h, Bool.true_or, if_pos rfl]

theorem Alnum.flatMap_spell {cs : List Char} (h : Alnum cs) : cs.flatMap spell = cs := by
  calc cs.flatMap spell
      = cs.flatMap fun c => [c] := List.flatMap_congr fun c hc => spell_of_isAlphanum (h c hc)
    _ = cs := List.flatMap_singleton' cs

theorem Alnum.any_isJoiner {cs : List Char} (h : Alnum cs) : cs.any isJoiner = false := by
  rw [List.any_eq_false]
  intro c hc hjoiner
  have halnum := h c hc
  simp only [isJoiner, Bool.or_eq_true, beq_iff_eq] at hjoiner
  rcases hjoiner with (rfl | rfl) | rfl <;> exact absurd halnum (by decide)

/-- The names that are their own type names. -/
theorem typeName_eq_self_iff {name : String} : typeName name = name ↔ Capital name.toList := by
  refine ⟨fun h => h ▸ capital_typeName name,fun h => ?_⟩
  have hplain : ¬ name.toList.any isJoiner = true := Bool.eq_false_iff.mp h.alnum.any_isJoiner
  rw [typeName]
  simp only [h.alnum.flatMap_spell, if_neg hplain, h.capitalize_eq, h.legalStart_eq,
    String.ofList_toList]

/-! ## Variants -/

/-- The names that are their own names of variants. -/
theorem variantName_eq_self_iff {name : String} :
    variantName name = name ↔ Capital name.toList := by
  refine ⟨fun h => h ▸ capital_variantName name,fun h => ?_⟩
  have hplain : ¬ name.toList.contains '_' = true := by
    intro hmem
    exact absurd (h.alnum '_' (List.contains_iff_mem.mp hmem)) (by decide)
  rw [variantName]
  simp only [underscored_of_wordlike h.alnum.wordlike, if_neg hplain, h.capitalize_eq,
    h.legalStart_eq, String.ofList_toList]

/-! ## Bindings -/

/-- A name in snake case is escaped once: the underscore behind a word that has no raw form is lost
in snake case and comes back. -/
theorem bindingName_unraw {name : String} (h : snake name = name) :
    bindingName (unraw (bindingName name)) = bindingName name := by
  rw [unraw_bindingName, h]
  split
  · rename_i hnever
    have hback : ∀ word ∈ neverRaw, snake word = word →
        bindingName (word ++ "_") = bindingName word := by
      decide +kernel
    exact hback name (List.contains_iff_mem.mp hnever) h
  · rfl

/-- A name made of a name of its kind is the same name; for bindings the mark of the raw form is
left out in between. -/
theorem casing_idempotent (name : String) :
    typeName (typeName name) = typeName name ∧ snake (snake name) = snake name ∧
      variantName (variantName name) = variantName name ∧
      bindingName (unraw (bindingName name)) = bindingName name := by
  have hsnake : bindingName (snake name) = bindingName name :=
    bindingName_inj.mpr (snake_snake name)
  refine ⟨typeName_eq_self_iff.mpr (capital_typeName name),snake_snake name,
    variantName_eq_self_iff.mpr (capital_variantName name),?_⟩
  rw [← hsnake]
  exact bindingName_unraw (snake_snake name)

end ClientGen.Ident
