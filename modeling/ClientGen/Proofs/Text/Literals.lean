import ClientGen.Text.Quoted
import Mathlib.Tactic.Common

/-! # Reading quoted text

A literal stands for the text that its escapes leave. Quoting a text makes a literal for this text.
-/
namespace ClientGen.Text

/-! ## Literals -/

/-- Escapes of two characters, each with what it stands for. -/
def shortEscapes : List (Char × Char) :=
  [('n','\n'),('r','\r'),('t','\t'),('\\','\\'),('0','\x00'),('\'','\''),('"','"')]

def hexDigit? (c : Char) : Option Nat :=
  if c.isDigit then some (c.toNat - 48)
  else if 'a' ≤ c ∧ c ≤ 'f' then some (c.toNat - 87)
  else if 'A' ≤ c ∧ c ≤ 'F' then some (c.toNat - 55)
  else none

/-- The character of a code point, if the code point is not a surrogate or too large. -/
def codePoint? (n : Nat) : Option Char :=
  if n.isValidChar then some (Char.ofNat n) else none

inductive LiteralPart
  /-- In the text; blanks that follow a backslash at the end of a line are left out. -/
  | text (skipping : Bool)
  | backslash
  /-- In an escape of two hexadecimal digits, with the first of them once it is read. -/
  | byte (high : Option Nat)
  /-- In front of the brace of an escape of a code point. -/
  | brace
  /-- In the braces, with the number of digits read and their value. -/
  | code (digits value : Nat)
  deriving DecidableEq, Repr

/-- What the rest of a literal stands for, after its opening quote or anywhere later. -/
def readLiteral : LiteralPart → List Char → Option (List Char)
  | _, [] => none
  | .text skipping, c :: rest =>
    if skipping = true ∧ c ∈ [' ','\t','\n','\r'] then readLiteral (.text true) rest
    else if c = '"' then if rest.isEmpty then some [] else none
    else if c = '\\' then readLiteral .backslash rest
    else if c = '\r' then none
    else (readLiteral (.text false) rest).map (c :: ·)
  | .backslash, c :: rest =>
    if c = 'x' then readLiteral (.byte none) rest
    else if c = 'u' then readLiteral .brace rest
    else if c = '\n' then readLiteral (.text true) rest
    else (shortEscapes.lookup c).bind fun d => (readLiteral (.text false) rest).map (d :: ·)
  | .byte none, c :: rest =>
    (hexDigit? c).bind fun high =>
      if high < 8 then readLiteral (.byte (some high)) rest else none
  | .byte (some high), c :: rest =>
    (hexDigit? c).bind fun low =>
      (readLiteral (.text false) rest).map (Char.ofNat (16 * high + low) :: ·)
  | .brace, c :: rest => if c = '\x7b' then readLiteral (.code 0 0) rest else none
  | .code digits value, c :: rest =>
    if c = '\x7d' then
      if digits = 0 then none
      else (codePoint? value).bind fun d => (readLiteral (.text false) rest).map (d :: ·)
    else if c = '_' then if digits = 0 then none else readLiteral (.code digits value) rest
    else if digits < 6 then
      (hexDigit? c).bind fun d => readLiteral (.code (digits + 1) (16 * value + d)) rest
    else none

/-- The text that a literal stands for. -/
def unquote? (literal : String) : Option String :=
  match literal.toList with
  | '"' :: body => (readLiteral (.text false) body).map String.ofList
  | _ => none

/-! ## Escapes -/

/-- How a character is written in a literal. -/
inductive EscapeForm (c : Char) : List Char → Prop
  | short {d : Char} (h : shortEscapes.lookup d = some c) : EscapeForm c ['\\',d]
  | codePoint : EscapeForm c (codePointEscape c)
  | plain (quote : c ≠ '"') (backslash : c ≠ '\\') (printable : isPrintable c = true)
      (extender : isExtender c = false) : EscapeForm c [c]

theorem escapeForm_escape (c : Char) : EscapeForm c (escape c) := by
  unfold escape
  split
  · rename_i h
    exact h ▸ .short rfl
  split
  · rename_i h
    exact h ▸ .short rfl
  split
  · rename_i h
    exact h ▸ .short rfl
  split
  · rename_i h
    exact h ▸ .short rfl
  split
  · rename_i h
    rcases h with rfl | rfl
    · exact .short rfl
    · exact .short rfl
  split
  · exact .codePoint
  · rename_i hplain hshown
    obtain ⟨hbackslash,hquote⟩ := not_or.mp hplain
    simp only [Bool.or_eq_true, Bool.not_eq_true', not_or, Bool.not_eq_true,
      Bool.not_eq_false] at hshown
    exact .plain hquote hbackslash hshown.2 hshown.1

theorem digitChar_in_code : ∀ d < 16, d.digitChar ≠ '\x7d' ∧ d.digitChar ≠ '_' ∧
    hexDigit? d.digitChar = some d := by
  decide

theorem readLiteral_digit {d : Nat} (hd : d < 16) {digits : Nat} (hdigits : digits < 6)
    (value : Nat) (rest : List Char) :
    readLiteral (.code digits value) (d.digitChar :: rest) =
      readLiteral (.code (digits + 1) (16 * value + d)) rest := by
  obtain ⟨hclose,hunderscore,hvalue⟩ := digitChar_in_code d hd
  rw [readLiteral, if_neg hclose, if_neg hunderscore, if_pos hdigits, hvalue, Option.bind_some]

/-- A number in hexadecimal digits is read as itself. -/
theorem readLiteral_toDigits (n : Nat) (rest : List Char)
    (h : (Nat.toDigits 16 n).length ≤ 6) :
    readLiteral (.code 0 0) (Nat.toDigits 16 n ++ rest) =
      readLiteral (.code (Nat.toDigits 16 n).length n) rest := by
  induction n using Nat.strongRecOn generalizing rest with
  | ind n ih =>
    by_cases hn : n < 16
    · rw [Nat.toDigits_of_lt_base hn, List.singleton_append, readLiteral_digit hn (by decide)]
      simp
    · have hbase : 16 ≤ n := Nat.not_lt.mp hn
      rw [Nat.toDigits_of_base_le (by decide) hbase] at h ⊢
      rw [List.length_append, List.length_singleton] at h ⊢
      rw [List.append_assoc, List.singleton_append, ih (n / 16) (by omega) _ (by omega),
        readLiteral_digit (Nat.mod_lt _ (by decide)) (by omega), Nat.div_add_mod]

theorem isValidChar_toNat (c : Char) : c.toNat.isValidChar :=
  c.valid

theorem codePoint?_toNat (c : Char) : codePoint? c.toNat = some c := by
  rw [codePoint?, if_pos (isValidChar_toNat c), Char.ofNat_toNat]

section
variable (rest : List Char)

theorem readLiteral_backslash :
    readLiteral (.text false) ('\\' :: rest) = readLiteral .backslash rest := by
  simp [readLiteral]

theorem readLiteral_short {c d : Char} (h : shortEscapes.lookup c = some d) :
    readLiteral (.text false) ('\\' :: c :: rest) =
      (readLiteral (.text false) rest).map (d :: ·) := by
  have hshort : c ≠ 'x' ∧ c ≠ 'u' ∧ c ≠ '\n' := by
    refine ⟨?_,?_,?_⟩
    · rintro rfl
      nomatch h
    · rintro rfl
      nomatch h
    · rintro rfl
      nomatch h
  rw [readLiteral_backslash, readLiteral, if_neg hshort.1, if_neg hshort.2.1, if_neg hshort.2.2,
    h, Option.bind_some]

theorem readLiteral_codePointEscape (c : Char) :
    readLiteral (.text false) (codePointEscape c ++ rest) =
      (readLiteral (.text false) rest).map (c :: ·) := by
  have hsmall : c.toNat < 16 ^ 6 := by
    have hvalid := isValidChar_toNat c
    unfold Nat.isValidChar at hvalid
    omega
  have hlength := (Nat.length_toDigits_le_iff (by decide) (by decide)).mpr hsmall
  have hsome : (Nat.toDigits 16 c.toNat).length ≠ 0 := Nat.ne_of_gt Nat.length_toDigits_pos
  have hbody : codePointEscape c ++ rest =
      '\\' :: 'u' :: '\x7b' :: (Nat.toDigits 16 c.toNat ++ '\x7d' :: rest) := by
    simp [codePointEscape]
  have hopen (body : List Char) : readLiteral .backslash ('u' :: '\x7b' :: body) =
      readLiteral (.code 0 0) body := by
    simp [readLiteral]
  rw [hbody, readLiteral_backslash, hopen, readLiteral_toDigits _ _ hlength, readLiteral,
    if_pos rfl, if_neg hsome, codePoint?_toNat, Option.bind_some]

theorem readLiteral_char {c : Char} (hquote : c ≠ '"') (hbackslash : c ≠ '\\')
    (hreturn : c ≠ '\r') : readLiteral (.text false) (c :: rest) =
      (readLiteral (.text false) rest).map (c :: ·) := by
  simp [readLiteral, hquote, hbackslash, hreturn]

/-- An escape stands for its character. -/
theorem readLiteral_escape (c : Char) : readLiteral (.text false) (escape c ++ rest) =
    (readLiteral (.text false) rest).map (c :: ·) := by
  have hform := escapeForm_escape c
  generalize escape c = written at hform
  cases hform with
  | short h => exact readLiteral_short rest h
  | codePoint => exact readLiteral_codePointEscape rest c
  | plain hquote hbackslash hprintable _ =>
    have hreturn : c ≠ '\r' := by
      rintro rfl
      exact absurd hprintable (by decide)
    exact readLiteral_char rest hquote hbackslash hreturn

end

theorem readLiteral_flatMap_escape (cs : List Char) :
    readLiteral (.text false) (cs.flatMap escape ++ ['"']) = some cs := by
  induction cs with
  | nil => rfl
  | cons c cs ih =>
    rw [List.flatMap_cons, List.append_assoc, readLiteral_escape, ih, Option.map_some]

/-- A quoted text stands for the text. -/
theorem unquote?_quote (s : String) : unquote? (quote s) = some s := by
  rw [unquote?, quote, String.toList_ofList]
  simp only [List.cons_append]
  rw [readLiteral_flatMap_escape, Option.map_some, String.ofList_toList]

example : unquote? "\"a\\u{e9}\\\"\"" = some "aé\"" := by decide

end ClientGen.Text
