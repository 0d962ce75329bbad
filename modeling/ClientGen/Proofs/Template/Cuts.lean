import ClientGen.Operation.Template
import Mathlib.Data.List.Basic

/-! # Cuts of a template

A text either has no whole placeholder, or its first one can be cut off with the text before it.
What holds of texts of the first kind and is kept by such a cut holds of all texts.
-/
namespace ClientGen.Template

/-- No opening brace is closed. -/
def Unfilled (cs : List Char) : Prop :=
  ∀ t u, cs = t ++ '{' :: u → '}' ∉ u

theorem unfilled_of_not_opened {cs : List Char} (h : '{' ∉ cs) : Unfilled cs := by
  rintro t u rfl
  exact absurd (List.mem_append_right _ List.mem_cons_self) h

theorem unfilled_of_not_closed {cs : List Char} (h : '}' ∉ cs) : Unfilled cs := by
  rintro t u rfl hu
  exact h (List.mem_append_right _ (List.mem_cons_of_mem _ hu))

theorem unfilled_of_first {t u : List Char} (ht : '{' ∉ t) (hu : '}' ∉ u) :
    Unfilled (t ++ '{' :: u) := by
  intro t' u' he hclosed
  refine hu ?_
  -- the first brace stands before any other
  rcases List.append_eq_append_iff.mp he with ⟨a,_,ha⟩ | ⟨a,rfl,ha⟩
  · cases a with
    | nil => rw [(List.cons.inj ha).2]; exact hclosed
    | cons _ a =>
      rw [(List.cons.inj ha).2]
      exact List.mem_append_right _ (List.mem_cons_of_mem _ hclosed)
  · cases a with
    | nil => rw [← (List.cons.inj ha).2]; exact hclosed
    | cons _ a =>
      rw [← (List.cons.inj ha).1] at ht
      exact absurd (List.mem_append_right _ List.mem_cons_self) ht

theorem scan_text {t : List Char} (ht : '{' ∉ t) (before rest : List Char) :
    scan before none (t ++ rest) = scan (before ++ t) none rest := by
  induction t generalizing before with
  | nil => simp
  | cons c t ih =>
    obtain ⟨hc,ht⟩ := not_or.mp (mt List.mem_cons.mpr ht)
    rw [List.cons_append, scan, if_neg (Ne.symm hc), ih ht, List.append_assoc,
      List.singleton_append]

theorem scan_name {n : List Char} (hn : '}' ∉ n) (before name rest : List Char) :
    scan before (some name) (n ++ rest) = scan before (some (name ++ n)) rest := by
  induction n generalizing name with
  | nil => simp
  | cons c n ih =>
    obtain ⟨hc,hn⟩ := not_or.mp (mt List.mem_cons.mpr hn)
    rw [List.cons_append, scan]
    simp only [if_neg (Ne.symm hc), ih hn, List.append_assoc, List.singleton_append]

/-- A placeholder as an opening brace and what follows it. -/
theorem cut_assoc (t n rest : List Char) :
    t ++ '{' :: n ++ '}' :: rest = t ++ '{' :: (n ++ '}' :: rest) := by
  rw [List.append_assoc, List.cons_append]

/-- The first placeholder is cut off. -/
theorem cuts_cut {t n : List Char} (ht : '{' ∉ t) (hn : '}' ∉ n) (rest : List Char) :
    cuts (t ++ '{' :: n ++ '}' :: rest) = ((t,n) :: (cuts rest).1,(cuts rest).2) := by
  rw [cut_assoc, cuts, scan_text ht, List.nil_append, scan, if_pos rfl, scan_name hn,
    List.nil_append, scan]
  rfl

theorem cuts_unfilled {cs : List Char} (h : Unfilled cs) : cuts cs = ([],cs) := by
  by_cases hopen : '{' ∈ cs
  · obtain ⟨t,u,rfl,ht⟩ := List.eq_append_cons_of_mem hopen
    have hu := scan_name (h t u rfl) t [] []
    rw [List.append_nil] at hu
    rw [cuts, scan_text ht, List.nil_append, scan, if_pos rfl, hu]
    rfl
  · have ht := scan_text hopen [] []
    rw [List.append_nil] at ht
    rw [cuts, ht]
    simp [scan]

/-- Every text without a whole placeholder, or a first placeholder and what follows it. -/
theorem unfilled_or_cut (cs : List Char) : Unfilled cs ∨
    ∃ t n rest, cs = t ++ '{' :: n ++ '}' :: rest ∧ '{' ∉ t ∧ '}' ∉ n := by
  by_cases hopen : '{' ∈ cs
  · obtain ⟨t,u,rfl,ht⟩ := List.eq_append_cons_of_mem hopen
    by_cases hclose : '}' ∈ u
    · obtain ⟨n,rest,rfl,hn⟩ := List.eq_append_cons_of_mem hclose
      exact .inr ⟨t,n,rest,by simp,ht,hn⟩
    · exact .inl (unfilled_of_first ht hclose)
  · exact .inl (unfilled_of_not_opened hopen)

@[elab_as_elim]
theorem cut_induction {motive : List Char → Prop} (unfilled : ∀ cs, Unfilled cs → motive cs)
    (cut : ∀ t n rest, '{' ∉ t → '}' ∉ n → motive rest → motive (t ++ '{' :: n ++ '}' :: rest))
    (cs : List Char) : motive cs := by
  induction hl : cs.length using Nat.strongRecOn generalizing cs with
  | ind l ih =>
    rcases unfilled_or_cut cs with h | ⟨t,n,rest,rfl,ht,hn⟩
    · exact unfilled cs h
    · refine cut t n rest ht hn (ih rest.length ?_ rest rfl)
      simp only [← hl, List.length_append, List.length_cons]
      omega

/-! ## Names and openings -/

def names (cs : List Char) : List (List Char) :=
  (cuts cs).1.map (·.2)

theorem placeholders_eq (path : String) :
    placeholders path = (names path.toList).map String.ofList := by
  simp [placeholders, names]

theorem names_unfilled {cs : List Char} (h : Unfilled cs) : names cs = [] := by
  rw [names, cuts_unfilled h, List.map_nil]

theorem names_cut {t n : List Char} (ht : '{' ∉ t) (hn : '}' ∉ n) (rest : List Char) :
    names (t ++ '{' :: n ++ '}' :: rest) = n :: names rest := by
  rw [names, cuts_cut ht hn, List.map_cons, names]

/-- The text up to the `k`-th placeholder, its opening brace included. -/
def opening (cs : List Char) (k : Nat) : List Char :=
  ((cuts cs).1.take k).flatMap (fun (before,name) => before ++ '{' :: name ++ ['}']) ++
    (((cuts cs).1[k]?.map (·.1)).getD []) ++ ['{']

theorem opening_cut_zero {t n : List Char} (ht : '{' ∉ t) (hn : '}' ∉ n) (rest : List Char) :
    opening (t ++ '{' :: n ++ '}' :: rest) 0 = t ++ ['{'] := by
  simp only [opening, cuts_cut ht hn, List.take_zero, List.flatMap_nil, List.nil_append,
    List.getElem?_cons_zero, Option.map_some, Option.getD_some]

theorem opening_cut_succ {t n : List Char} (ht : '{' ∉ t) (hn : '}' ∉ n) (rest : List Char)
    (k : Nat) : opening (t ++ '{' :: n ++ '}' :: rest) (k + 1) =
      t ++ '{' :: n ++ '}' :: opening rest k := by
  rw [opening, cuts_cut ht hn, opening]
  simp

/-- After its opening the text goes on with the placeholder's name. -/
theorem eq_opening_append (cs : List Char) {k : Nat} {n : List Char}
    (hk : (names cs)[k]? = some n) :
    ∃ rest, cs = opening cs k ++ n ++ '}' :: rest := by
  induction cs using cut_induction generalizing k with
  | unfilled cs h => simp [names_unfilled h] at hk
  | cut t m rest ht hm ih =>
    rw [names_cut ht hm] at hk
    cases k with
    | zero =>
      cases hk
      refine ⟨rest,?_⟩
      rw [opening_cut_zero ht hm]
      simp
    | succ k =>
      obtain ⟨tail,he⟩ := ih hk
      refine ⟨tail,?_⟩
      rw [opening_cut_succ ht hm]
      conv_lhs => rw [he]
      simp

/-- A whole placeholder is its name in braces, with no brace in the name. -/
theorem whole_eq {segment name : String} (h : wholePlaceholder? segment = some name) :
    segment.toList = '{' :: name.toList ++ ['}'] ∧ '}' ∉ name.toList := by
  unfold wholePlaceholder? at h
  cases hs : segment.toList with
  | nil => simp [hs] at h
  | cons c rest =>
    rw [hs] at h
    split at h
    · rename_i rest' he
      cases he
      split at h
      · rename_i hlast
        split at h
        · cases h
        · rename_i hbraces
          cases h
          simp only [Bool.or_eq_true, not_or, List.contains_iff_mem] at hbraces
          have hrest : rest.dropLast ++ ['}'] = rest := List.dropLast_append_getLast? '}' hlast
          rw [String.toList_ofList, List.cons_append, hrest]
          exact ⟨rfl,hbraces.2⟩
      · cases h
    · cases h

/-- A whole placeholder is the only one of its segment. -/
theorem names_of_whole {segment name : String} (h : wholePlaceholder? segment = some name) :
    names segment.toList = [name.toList] := by
  obtain ⟨hsegment,hname⟩ := whole_eq h
  have hcut := names_cut (t := []) List.not_mem_nil hname []
  rw [List.nil_append] at hcut
  rw [hsegment, hcut, names_unfilled (unfilled_of_not_opened List.not_mem_nil)]

/-! ## Text in front -/

theorem Unfilled.text_append {p cs : List Char} (hp : '{' ∉ p) (h : Unfilled cs) :
    Unfilled (p ++ cs) := by
  by_cases hopen : '{' ∈ cs
  · obtain ⟨t,u,rfl,ht⟩ := List.eq_append_cons_of_mem hopen
    rw [← List.append_assoc]
    exact unfilled_of_first (by simp [hp, ht]) (h t u rfl)
  · exact unfilled_of_not_opened (by simp [hp, hopen])

theorem names_text_append {p : List Char} (hp : '{' ∉ p) (cs : List Char) :
    names (p ++ cs) = names cs := by
  rcases unfilled_or_cut cs with h | ⟨t,n,rest,rfl,ht,hn⟩
  · rw [names_unfilled h, names_unfilled (h.text_append hp)]
  · rw [← List.append_assoc, ← List.append_assoc, names_cut ht hn, names_cut (by simp [hp, ht]) hn]

theorem opening_text_append {p : List Char} (hp : '{' ∉ p) (cs : List Char) {k : Nat}
    (hk : k < (names cs).length) : opening (p ++ cs) k = p ++ opening cs k := by
  rcases unfilled_or_cut cs with h | ⟨t,n,rest,rfl,ht,hn⟩
  · simp [names_unfilled h] at hk
  · have hpt : '{' ∉ p ++ t := by simp [hp, ht]
    rw [← List.append_assoc, ← List.append_assoc]
    cases k with
    | zero => rw [opening_cut_zero ht hn, opening_cut_zero hpt hn, List.append_assoc]
    | succ k =>
      rw [opening_cut_succ ht hn, opening_cut_succ hpt hn]
      simp

end ClientGen.Template
