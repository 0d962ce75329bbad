import ClientGen.Number.Shortest
import ClientGen.Proofs.Ident.Letters

/-! # Letters of numerals

Numbers are written in letters and digits, with signs and points.
-/
namespace ClientGen

/-- Letters, digits, signs and points. -/
def Numeral (cs : List Char) : Prop :=
  ∀ c ∈ cs, c.isAlphanum = true ∨ c = '-' ∨ c = '.'

namespace Numeral
variable {cs ds : List Char}

theorem append (hc : Numeral cs) (hd : Numeral ds) : Numeral (cs ++ ds) := by
  intro c h
  rcases List.mem_append.mp h with h | h
  · exact hc c h
  · exact hd c h

theorem mono (hd : Numeral ds) (h : cs ⊆ ds) : Numeral cs :=
  fun c hc => hd c (h hc)

end Numeral

theorem numeral_toDigits (n : Nat) : Numeral (Nat.toDigits 10 n) := by
  intro c hc
  have hdigit := Nat.isDigit_of_mem_toDigits (by decide) (by decide) hc
  exact .inl (by rw [Char.isAlphanum, hdigit, Bool.or_true])

theorem numeral_int (i : Int) : Numeral (toString i).toList := by
  have hminus : Numeral "-".toList := by simp [Numeral]
  cases i with
  | ofNat n =>
    show Numeral (toString n).toList
    rw [Nat.toString_eq_repr, Nat.toList_repr]
    exact numeral_toDigits n
  | negSucc n =>
    show Numeral ("-" ++ toString (n + 1)).toList
    rw [String.toList_append, Nat.toString_eq_repr, Nat.toList_repr]
    exact hminus.append (numeral_toDigits _)

namespace Binary64

theorem numeral_zeros (n : Int) : Numeral (zeros n) := by
  intro c hc
  rw [List.eq_of_mem_replicate hc]
  exact .inl rfl

theorem numeral_dropTrailingZeros {ds : List Char} (h : Numeral ds) :
    Numeral (dropTrailingZeros ds) := by
  unfold dropTrailingZeros
  split
  · simp [Numeral]
  · refine h.mono fun c hc => ?_
    exact List.mem_reverse.mp (List.dropWhile_subset _ (List.mem_reverse.mp hc))

theorem numeral_positional {ds : List Char} (h : Numeral ds) (point : Int) :
    Numeral (positional ds point) := by
  have hpoint : Numeral ['.'] := by simp [Numeral]
  have hzero : Numeral ['0'] := by simp [Numeral]
  unfold positional
  split
  · exact ((hzero.append hpoint).append (numeral_zeros _)).append h
  split
  · exact (h.append (numeral_zeros _)).append (hpoint.append hzero)
  · exact ((h.mono (List.take_subset _ _)).append hpoint).append (h.mono (List.drop_subset _ _))

theorem numeral_scientific {ds : List Char} (h : Numeral ds) (point : Int) :
    Numeral (scientific ds point) := by
  have hpoint : Numeral ['.'] := by simp [Numeral]
  have he : Numeral ['e'] := by simp [Numeral]
  have htail : Numeral (if (ds.drop 1).isEmpty then [] else '.' :: ds.drop 1) := by
    split
    · simp [Numeral]
    · exact hpoint.append (h.mono (List.drop_subset _ _))
  exact (((h.mono (List.take_subset _ _)).append htail).append he).append (numeral_int _)

theorem numeral_text (x : Binary64) : Numeral x.text.toList := by
  cases x with
  | nan => simp [text, Numeral]
  | infinity negative => cases negative <;> simp [text, Numeral]
  | finite negative m q =>
    have hsign : Numeral (if negative then ['-'] else []) := by cases negative <;> simp [Numeral]
    have hmagnitude : Numeral (magnitudeText m q) := by
      unfold magnitudeText
      split
      · simp [Numeral]
      · have hdigits := numeral_dropTrailingZeros (numeral_toDigits (shortest m q).1)
        simp only
        split
        · exact numeral_scientific hdigits _
        · exact numeral_positional hdigits _
    rw [text, String.toList_ofList]
    exact hsign.append hmagnitude

end Binary64
end ClientGen
