import ClientGen.Proofs.Text.Literals
import Mathlib.Data.List.Basic

/-! # Bodies of literals

What stands between the quotes of a literal. No quote and no backslash stands there outside of an
escape, and every character shows as itself, so the literal stays on its line and ends where it
seems to end.
-/
namespace ClientGen.Text

/-- The characters that no backslash in front of them escapes. A backslash that escapes nothing is
one of them. -/
def unescaped : List Char → List Char
  | [] => []
  | [c] => [c]
  | c :: d :: rest => if c = '\\' then unescaped rest else c :: unescaped (d :: rest)

/-- Quotes and backslashes stand only in escapes. -/
def Escaped (body : List Char) : Prop :=
  ∀ c ∈ unescaped body, c ≠ '"' ∧ c ≠ '\\'

/-- Whatever ends a line in some file or script. -/
def lineBreaks : List Char :=
  ['\n','\x0b','\x0c','\r','\u0085','\u2028','\u2029']

/-- It shows as a character of its own. -/
def Shows (c : Char) : Prop :=
  isPrintable c = true ∧ isExtender c = false

instance (c : Char) : Decidable (Shows c) :=
  inferInstanceAs (Decidable (_ ∧ _))

/-- Counting along a list takes one step for each bound where it is evaluated in a proof. -/
theorem between_eq_countP (bounds : Array Nat) (n : Nat) :
    between bounds n = (bounds.toList.countP (· ≤ n) % 2 == 1) := by
  rw [between, Array.countP_toList]

theorem isPrintable_of_mem_lineBreaks {c : Char} (h : c ∈ lineBreaks) : isPrintable c = false := by
  simp only [lineBreaks, List.mem_cons, List.not_mem_nil, or_false] at h
  rw [isPrintable, between_eq_countP]
  rcases h with rfl | rfl | rfl | rfl | rfl | rfl | rfl <;> decide +kernel

/-! ## Escapes in a body -/

section
variable {rest : List Char}

theorem unescaped_cons {c : Char} (h : c ≠ '\\') (rest : List Char) :
    unescaped (c :: rest) = c :: unescaped rest := by
  cases rest with
  | nil => rfl
  | cons d rest => exact if_neg h

theorem Escaped.cons {c : Char} (hquote : c ≠ '"') (hbackslash : c ≠ '\\') (h : Escaped rest) :
    Escaped (c :: rest) := by
  rw [Escaped, unescaped_cons hbackslash]
  exact List.forall_mem_cons.mpr ⟨⟨hquote,hbackslash⟩,h⟩

theorem Escaped.append {cs : List Char} (hcs : ∀ c ∈ cs, c ≠ '"' ∧ c ≠ '\\') (h : Escaped rest) :
    Escaped (cs ++ rest) := by
  induction cs with
  | nil => exact h
  | cons c cs ih =>
    obtain ⟨hc,hcs⟩ := List.forall_mem_cons.mp hcs
    exact (ih hcs).cons hc.1 hc.2

theorem mem_toDigits {c : Char} {n : Nat} (h : c ∈ Nat.toDigits 16 n) :
    ∃ d < 16, c = d.digitChar := by
  induction n using Nat.strongRecOn with
  | ind n ih =>
    by_cases hn : n < 16
    · rw [Nat.toDigits_of_lt_base hn] at h
      exact ⟨n,hn,List.mem_singleton.mp h⟩
    · have hbase : 16 ≤ n := Nat.not_lt.mp hn
      rw [Nat.toDigits_of_base_le (by decide) hbase] at h
      rcases List.mem_append.mp h with h | h
      · exact ih (n / 16) (by omega) h
      · exact ⟨n % 16,Nat.mod_lt _ (by decide),List.mem_singleton.mp h⟩

/-- A code point in braces, as its escape has it behind the backslash and the letter. -/
def braced (c : Char) : List Char :=
  '\x7b' :: (Nat.toDigits 16 c.toNat ++ ['\x7d'])

theorem codePointEscape_eq (c : Char) : codePointEscape c = '\\' :: 'u' :: braced c := by
  simp [codePointEscape, braced]

theorem digitChar_in_body : ∀ d < 16, d.digitChar ≠ '"' ∧ d.digitChar ≠ '\\' ∧
    Shows d.digitChar := by
  decide

theorem of_mem_braced {c d : Char} (h : d ∈ braced c) : d ≠ '"' ∧ d ≠ '\\' ∧ Shows d := by
  simp only [braced, List.mem_cons, List.mem_append, List.not_mem_nil, or_false] at h
  rcases h with rfl | h | rfl
  · decide
  · obtain ⟨digit,hdigit,rfl⟩ := mem_toDigits h
    exact digitChar_in_body digit hdigit
  · decide

theorem Escaped.escape (h : Escaped rest) (c : Char) : Escaped (escape c ++ rest) := by
  have hform := escapeForm_escape c
  generalize Text.escape c = written at hform
  cases hform with
  -- the backslash escapes the character after it
  | short => exact h
  | codePoint =>
    have hbraced : Escaped (braced c ++ rest) :=
      h.append fun d hd => ⟨(of_mem_braced hd).1,(of_mem_braced hd).2.1⟩
    rw [codePointEscape_eq]
    exact hbraced
  | plain hquote hbackslash => exact h.cons hquote hbackslash

theorem escaped_flatMap_escape (cs : List Char) : Escaped (cs.flatMap escape) := by
  induction cs with
  | nil => exact fun c hc => absurd hc List.not_mem_nil
  | cons c cs ih =>
    rw [List.flatMap_cons]
    exact ih.escape c

end

theorem shows_of_lookup {c d : Char} (h : shortEscapes.lookup d = some c) : Shows d := by
  have hshort : ∀ e ∈ shortEscapes, Shows e.1 := by decide
  obtain ⟨before,after,he,_⟩ := List.lookup_eq_some_iff.mp h
  exact hshort (d,c) (he ▸ List.mem_append_right _ List.mem_cons_self)

theorem shows_of_mem_escape {c d : Char} (h : d ∈ escape c) : Shows d := by
  have hbackslash : Shows '\\' := by decide
  have hletter : Shows 'u' := by decide
  have hform := escapeForm_escape c
  generalize escape c = written at h hform
  cases hform with
  | short hlookup =>
    simp only [List.mem_cons, List.not_mem_nil, or_false] at h
    rcases h with rfl | rfl
    · exact hbackslash
    · exact shows_of_lookup hlookup
  | codePoint =>
    rw [codePointEscape_eq] at h
    rcases List.mem_cons.mp h with rfl | h
    · exact hbackslash
    rcases List.mem_cons.mp h with rfl | h
    · exact hletter
    · exact (of_mem_braced h).2.2
  | plain _ _ hprintable hextender =>
    rw [List.mem_singleton.mp h]
    exact ⟨hprintable,hextender⟩

/-! ## Quoted texts -/

/-- A literal for a text, on one line, that ends at the first quote outside of an escape. -/
structure IsLiteral (literal text : String) (body : List Char) : Prop where
  quoted : literal.toList = '"' :: body ++ ['"']
  escaped : Escaped body
  oneLine : ∀ c ∈ body, c ∉ lineBreaks
  shows : ∀ c ∈ body, Shows c
  reads : unquote? literal = some text

theorem isLiteral_quote (s : String) : IsLiteral (quote s) s (s.toList.flatMap escape) where
  quoted := by rw [quote, String.toList_ofList]
  escaped := escaped_flatMap_escape s.toList
  oneLine c hc hbreak := by
    obtain ⟨d,_,hd⟩ := List.mem_flatMap.mp hc
    have hprintable := isPrintable_of_mem_lineBreaks hbreak
    rw [(shows_of_mem_escape hd).1] at hprintable
    cases hprintable
  shows c hc := by
    obtain ⟨d,_,hd⟩ := List.mem_flatMap.mp hc
    exact shows_of_mem_escape hd
  reads := unquote?_quote s

/-- A quoted text is a literal for this text, and two texts have two literals. -/
theorem quote_faithful :
    (∀ s, ∃ body, IsLiteral (quote s) s body) ∧ Function.Injective quote := by
  refine ⟨fun s => ⟨_,isLiteral_quote s⟩,fun s t h => ?_⟩
  have hread : some s = some t := by rw [← unquote?_quote s, h, unquote?_quote t]
  exact Option.some.inj hread

example : quote "a\"\\\n\x07" = "\"a\\\"\\\\\\n\\u\x7b7\x7d\"" := by decide

end ClientGen.Text
