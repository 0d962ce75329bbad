import ClientGen.Proofs.Ident.Legal
import ClientGen.Proofs.Ident.TypeNames

/-! # Names with capitals

Names of types and variants begin with a capital, as no word of the language does but the one that
they avoid. So they can be declared as they stand, also with a number behind them.
-/
namespace ClientGen.Ident

/-! ## Capitals -/

/-- Letters and digits with a capital in front, and not the one such word of the language. -/
structure Capital (cs : List Char) : Prop where
  alnum : Alnum cs
  first : ∃ c rest, cs = c :: rest ∧ c.isUpper = true
  ne_self : cs ≠ "Self".toList

theorem Capital.plain {name : String} (h : Capital name.toList) : Plain name := by
  obtain ⟨c,rest,hname,hupper⟩ := h.first
  have hwords : ∀ k ∈ reservedWords, k = "Self" ∨ k.toList.head?.any Char.isUpper = false := by
    decide +kernel
  refine ⟨⟨h.alnum.wordlike,c,rest,hname,by rw [Char.isAlpha, hupper, Bool.true_or]⟩,?_⟩
  intro hmem
  rcases hwords name hmem with rfl | hlow
  · exact h.ne_self rfl
  · simp [hname, hupper] at hlow

/-- What makes a start legal gives a capital to all that has no small letter in front. -/
theorem capital_legalStart {reserved cs : List Char} (hr : Capital reserved) (h : Capitalized cs) :
    Capital (legalStart reserved cs) := by
  obtain ⟨halnum,hlow⟩ := h
  have hstart := Alnum.legalStart hr.alnum halnum
  cases cs with
  | nil => exact ⟨hstart,⟨'E',_,rfl,rfl⟩,by simp [legalStart]⟩
  | cons c rest =>
    simp only [legalStart] at hstart ⊢
    split
    · rename_i hdigit
      rw [if_pos hdigit] at hstart
      exact ⟨hstart,⟨'N',_,rfl,rfl⟩,by simp⟩
    · rename_i hdigit
      split
      · exact hr
      · rename_i hself
        have hc : c.isLower = false := hlow c rfl
        have hupper : c.isUpper = true := by
          have hcalnum := halnum c List.mem_cons_self
          simpa [Char.isAlphanum, Char.isAlpha, hc, hdigit] using hcalnum
        exact ⟨halnum,⟨c,rest,rfl,hupper⟩,hself⟩

theorem capital_typeName (name : String) : Capital (typeName name).toList := by
  obtain ⟨joined,he,hjoined⟩ := typeName_eq name
  rw [he]
  exact capital_legalStart ⟨.of_all (by decide),⟨'S',_,rfl,rfl⟩,by decide⟩ hjoined

theorem capital_variantName (name : String) : Capital (variantName name).toList := by
  obtain ⟨joined,he,hjoined⟩ := variantName_eq name
  rw [he]
  exact capital_legalStart ⟨.of_all (by decide),⟨'S',_,rfl,rfl⟩,by decide⟩ hjoined

/-! ## Numbers behind a name -/

/-- No word of the language has a digit. -/
theorem Plain.append_digits {name : String} (h : Plain name) (n : Nat) :
    Plain (name ++ toString n) := by
  refine ⟨?_,fun hmem => ?_⟩
  · rw [String.toList_append]
    exact h.nameLike.append (wordlike_digits n)
  · have hwords : reservedWords.all (fun k => k.toList.all (! Char.isDigit ·)) = true := by decide
    have hnone := List.all_eq_true.mp (List.all_eq_true.mp hwords _ hmem)
    obtain ⟨c,rest,hdigits⟩ := List.exists_cons_of_ne_nil (Nat.toDigits_ne_nil (n := n) (b := 10))
    have hc : c ∈ Nat.toDigits 10 n := hdigits ▸ List.mem_cons_self
    have hdigit := Nat.isDigit_of_mem_toDigits (by decide) (by decide) hc
    have hlast : c ∈ (name ++ toString n).toList := by
      rw [String.toList_append, Nat.toString_eq_repr, Nat.toList_repr]
      exact List.mem_append_right _ hc
    simpa [hdigit] using hnone c hlast

theorem Plain.reserveType {base : String} (h : Plain base) (used : List String) :
    Plain (Ident.reserveType base used).1 := by
  rcases reserveType_cases base used with he | ⟨n,he⟩
  · rwa [he]
  · rw [he]
    exact h.append_digits n

theorem plain_of_mem_reserveAll {used bases : List String} (h : ∀ base ∈ bases, Plain base)
    {name : String} (hn : name ∈ reserveAll reserveType used bases) : Plain name :=
  of_mem_reserveAll (fun _ used hbase => hbase.reserveType used) h hn

end ClientGen.Ident
