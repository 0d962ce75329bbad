import ClientGen.Proofs.Template.Format

/-! # Searching for placeholders

Two searches run over a path, brace by brace: one lists the names, the other writes the holes. They
count positions differently, but both cut the path at the same places, and there is only one way to
cut a path.
-/
namespace ClientGen.Template

/-! ## The searches -/

/-- The names from an opening brace to the next closing one. The search goes on behind the closing
brace, and ends where it finds no more of either. -/
def foundNames (cs : List Char) : List (List Char) :=
  if '{' ∈ cs then
    let after := cs.drop (cs.idxOf '{' + 1)
    if '}' ∈ after then
      after.take (after.idxOf '}') :: foundNames (after.drop (after.idxOf '}' + 1))
    else []
  else []
termination_by cs.length
decreasing_by
  have hpos := List.length_pos_of_mem ‹ '{' ∈ cs›
  simp only [List.length_drop]
  omega

/-- The text with a hole from each opening brace to the next closing one, whose position is counted
from the opening brace. -/
def foundHoles (cs : List Char) : List Char :=
  if '{' ∈ cs then
    let opened := cs.idxOf '{'
    let closed := (cs.drop opened).idxOf '}'
    if '}' ∈ cs.drop opened then
      cs.take opened ++ '{' :: '}' :: foundHoles (cs.drop (opened + closed + 1))
    else cs
  else cs
termination_by cs.length
decreasing_by
  have hpos := List.length_pos_of_mem ‹ '{' ∈ cs›
  rw [List.length_drop]
  omega

/-! ## Positions of braces -/

theorem idxOf_first {c : Char} {t : List Char} (ht : c ∉ t) (rest : List Char) :
    (t ++ c :: rest).idxOf c = t.length := by
  rw [List.idxOf_append_of_notMem ht, List.idxOf_cons_self, Nat.add_zero]

theorem drop_behind (t rest : List Char) (c : Char) :
    (t ++ c :: rest).drop (t.length + 1) = rest := by
  rw [← List.drop_drop, List.drop_left]
  rfl

/-- Behind an opening brace that is never closed no search for a closing brace succeeds, whether it
starts at the opening brace or after it. -/
theorem Unfilled.not_closed {cs : List Char} (h : Unfilled cs) (hopen : '{' ∈ cs) :
    '}' ∉ cs.drop (cs.idxOf '{') ∧ '}' ∉ cs.drop (cs.idxOf '{' + 1) := by
  obtain ⟨t,u,rfl,ht⟩ := List.eq_append_cons_of_mem hopen
  have hu : '}' ∉ u := h t u rfl
  rw [idxOf_first ht, drop_behind, List.drop_left]
  exact ⟨by simp [hu],hu⟩

theorem foundNames_unfilled {cs : List Char} (h : Unfilled cs) : foundNames cs = [] := by
  rw [foundNames]
  split
  · rename_i hopen
    exact if_neg (h.not_closed hopen).2
  · rfl

theorem foundHoles_unfilled {cs : List Char} (h : Unfilled cs) : foundHoles cs = cs := by
  rw [foundHoles]
  split
  · rename_i hopen
    exact if_neg (h.not_closed hopen).1
  · rfl

section
variable {t n : List Char} (ht : '{' ∉ t) (hn : '}' ∉ n) (rest : List Char)
include ht hn

theorem foundNames_cut :
    foundNames (t ++ '{' :: n ++ '}' :: rest) = n :: foundNames rest := by
  rw [cut_assoc, foundNames, if_pos (by simp)]
  simp only [idxOf_first ht, drop_behind, idxOf_first hn, List.take_left]
  exact if_pos (by simp)

theorem foundHoles_cut : foundHoles (t ++ '{' :: n ++ '}' :: rest) =
    t ++ '{' :: '}' :: foundHoles rest := by
  have hname : '}' ∉ '{' :: n := by simp [hn]
  have hbrace : (t ++ '{' :: (n ++ '}' :: rest)).drop t.length = '{' :: n ++ '}' :: rest := by
    rw [List.drop_left, List.cons_append]
  have hlast : (t ++ '{' :: (n ++ '}' :: rest)).drop (t.length + ('{' :: n).length + 1) = rest := by
    rw [← cut_assoc, ← List.length_append, drop_behind]
  rw [cut_assoc, foundHoles, if_pos (by simp)]
  simp only [idxOf_first ht, hbrace, idxOf_first hname, hlast, List.take_left]
  exact if_pos (by simp)

end

theorem foundNames_eq (cs : List Char) : foundNames cs = names cs := by
  induction cs using cut_induction with
  | unfilled cs h => rw [foundNames_unfilled h, names_unfilled h]
  | cut t n rest ht hn ih => rw [foundNames_cut ht hn, names_cut ht hn, ih]

theorem foundHoles_eq (cs : List Char) : foundHoles cs = punched cs := by
  induction cs using cut_induction with
  | unfilled cs h => rw [foundHoles_unfilled h, punched_unfilled h]
  | cut t n rest ht hn ih => rw [foundHoles_cut ht hn, punched_cut ht hn, ih]

/-! ## The only cuts -/

/-- A text as placeholders, each with the text before it, and the text after the last. -/
structure CutInto (cs : List Char) (filled : List (List Char × List Char)) (tail : List Char) :
    Prop where
  text_eq : cs = filled.flatMap (fun (text,name) => text ++ '{' :: name ++ ['}']) ++ tail
  texts : ∀ text ∈ filled.map Prod.fst, '{' ∉ text
  names : ∀ name ∈ filled.map Prod.snd, '}' ∉ name
  tail : Unfilled tail

theorem cutInto_cuts (cs : List Char) : CutInto cs (cuts cs).1 (cuts cs).2 := by
  induction cs using cut_induction with
  | unfilled cs h =>
    rw [cuts_unfilled h]
    exact ⟨rfl,by simp,by simp,h⟩
  | cut t n rest ht hn ih =>
    rw [cuts_cut ht hn]
    refine ⟨?_,?_,?_,ih.tail⟩
    · conv_lhs => rw [ih.text_eq]
      simp
    · rw [List.map_cons]
      exact List.forall_mem_cons.mpr ⟨ht,ih.texts⟩
    · rw [List.map_cons]
      exact List.forall_mem_cons.mpr ⟨hn,ih.names⟩

theorem CutInto.cuts_eq {cs tail : List Char} {filled : List (List Char × List Char)}
    (h : CutInto cs filled tail) : cuts cs = (filled,tail) := by
  induction filled generalizing cs with
  | nil =>
    obtain rfl : cs = tail := h.text_eq
    exact cuts_unfilled h.tail
  | cons first filled ih =>
    obtain ⟨t,n⟩ := first
    obtain ⟨ht,htexts⟩ := List.forall_mem_cons.mp h.texts
    obtain ⟨hn,hnames⟩ := List.forall_mem_cons.mp h.names
    have hrest := ih ⟨rfl,htexts,hnames,h.tail⟩
    have he : cs = t ++ '{' :: n ++ '}' ::
        (filled.flatMap (fun (text,name) => text ++ '{' :: name ++ ['}']) ++ tail) := by
      rw [h.text_eq]
      simp
    rw [he, cuts_cut ht hn, hrest]

/-- Listing the names of a path and writing its holes make the same cuts, and there are no other
ones. Both searches come to them. -/
theorem same_cuts (path : String) : ∃ filled tail, CutInto path.toList filled tail ∧
    placeholders path = filled.map (fun (_,name) => String.ofList name) ∧
    (holes path).toList = filled.flatMap (fun (text,_) => text ++ ['{','}']) ++ tail ∧
    foundNames path.toList = filled.map Prod.snd ∧ foundHoles path.toList = (holes path).toList ∧
    ∀ filled' tail', CutInto path.toList filled' tail' → filled' = filled ∧ tail' = tail := by
  refine ⟨_,_,cutInto_cuts path.toList,rfl,?_,?_,?_,fun filled tail h => ?_⟩
  · rw [toList_holes, punched]
  · rw [foundNames_eq, names]
  · rw [foundHoles_eq, toList_holes]
  · rw [h.cuts_eq]
    exact ⟨rfl,rfl⟩

example : holes "/a\x7d/\x7bb\x7bc\x7d/d\x7d\x7b" = "/a\x7d/\x7b\x7d/d\x7d\x7b" := by decide

end ClientGen.Template
