import ClientGen.Proofs.Ident.Letters
import ClientGen.Text.DocLines

/-! # Doc lines settle

Whatever a text holds, its doc lines have no controls but tabs, no blanks at their ends and no empty
line at either edge, and all its visible characters. Lines like these come out as they are, so
taking the lines of a text once is enough.
-/
namespace ClientGen.Text

/-! ## Characters of a line -/

theorem plainControl_eq_self {c : Char} (h : isControl c = true → c = '\n' ∨ c = '\t') :
    plainControl c = c := by
  refine if_neg ?_
  rintro ⟨hc,hn,ht⟩
  exact (h hc).elim hn ht

theorem of_isControl_plainControl {c : Char} (h : isControl (plainControl c) = true) :
    plainControl c = '\n' ∨ plainControl c = '\t' := by
  unfold plainControl at h ⊢
  split
  · rename_i hc
    rw [if_pos hc] at h
    exact absurd h (by decide)
  · rename_i hc
    rw [if_neg hc] at h
    by_contra hnot
    obtain ⟨hn,ht⟩ := not_or.mp hnot
    exact hc ⟨h,hn,ht⟩

theorem mem_of_mem_trimEnd {c : Char} {cs : List Char} (h : c ∈ trimEnd cs) : c ∈ cs :=
  (List.rdropWhile_prefix isBlank cs).subset h

theorem dropEmptyEdges_eq (ls : List (List Char)) :
    dropEmptyEdges ls = (ls.dropWhile List.isEmpty).rdropWhile List.isEmpty := rfl

theorem mem_of_mem_dropEmptyEdges {l : List Char} {ls : List (List Char)}
    (h : l ∈ dropEmptyEdges ls) : l ∈ ls :=
  (List.dropWhile_sublist List.isEmpty).subset ((List.rdropWhile_prefix List.isEmpty _).subset h)

theorem of_mem_lines {l cs : List Char} (h : l ∈ lines cs) {c : Char} (hc : c ∈ l) :
    c ∈ cs ∧ c ≠ '\n' := by
  have hsplit : l ∈ cs.splitOn '\n' := by
    simp only [lines] at h
    split at h
    · exact (List.dropLast_sublist _).subset h
    · exact h
  obtain ⟨hmem,hsep⟩ := of_mem_splitOnP hsplit hc
  exact ⟨hmem,by simpa using hsep⟩

/-- A doc line is what trimming leaves of a line. -/
theorem exists_line_of_mem {line text : String} (h : line ∈ docLines text) :
    ∃ l ∈ lines ((unifyBreaks text.toList).map plainControl), line.toList = trimEnd l := by
  obtain ⟨trimmed,ht,rfl⟩ := List.mem_map.mp h
  obtain ⟨l,hl,rfl⟩ := List.mem_map.mp (mem_of_mem_dropEmptyEdges ht)
  exact ⟨l,hl,String.toList_ofList⟩

theorem eq_tab_of_isControl {line text : String} (h : line ∈ docLines text) {c : Char}
    (hc : c ∈ line.toList) (hcontrol : isControl c = true) : c = '\t' := by
  obtain ⟨l,hl,hline⟩ := exists_line_of_mem h
  rw [hline] at hc
  obtain ⟨hmem,hfeed⟩ := of_mem_lines hl (mem_of_mem_trimEnd hc)
  obtain ⟨d,_,rfl⟩ := List.mem_map.mp hmem
  exact (of_isControl_plainControl hcontrol).resolve_left hfeed

/-! ## Tidy lines -/

/-- Lines as a doc comment has them. -/
structure Tidy (ls : List String) : Prop where
  controls : ∀ line ∈ ls, ∀ c ∈ line.toList, isControl c = true → c = '\t'
  ends : ∀ line ∈ ls, ∀ c ∈ line.toList.getLast?, isBlank c = false
  first : ∀ line ∈ ls.head?, line ≠ ""
  last : ∀ line ∈ ls.getLast?, line ≠ ""

theorem getLast?_rdropWhile {α : Type} {p : α → Bool} {xs : List α} {x : α}
    (h : x ∈ (xs.rdropWhile p).getLast?) : p x = false := by
  obtain ⟨hne,rfl⟩ := List.mem_getLast?_eq_getLast h
  simpa using List.rdropWhile_last_not p xs hne

theorem head?_dropEmptyEdges {ls : List (List Char)} {l : List Char}
    (h : l ∈ (dropEmptyEdges ls).head?) : l.isEmpty = false := by
  -- what is dropped behind leaves the first line
  obtain ⟨rest,hrest⟩ := List.rdropWhile_prefix List.isEmpty (ls.dropWhile List.isEmpty)
  have hfirst := List.head?_dropWhile_not List.isEmpty ls
  rw [← hrest, List.head?_append, ← dropEmptyEdges_eq, Option.mem_def.mp h] at hfirst
  exact hfirst

theorem isEmpty_ofList {cs : List Char} (h : cs.isEmpty = false) : String.ofList cs ≠ "" := by
  intro he
  have hnil : cs = [] := String.ofList_injective he
  rw [hnil] at h
  cases h

theorem tidy_docLines (text : String) : Tidy (docLines text) where
  controls _ h _ hc hcontrol := eq_tab_of_isControl h hc hcontrol
  ends line h c hc := by
    obtain ⟨l,_,hline⟩ := exists_line_of_mem h
    rw [hline] at hc
    exact getLast?_rdropWhile hc
  first line h := by
    rw [docLines, List.head?_map] at h
    obtain ⟨l,hl,rfl⟩ := Option.map_eq_some_iff.mp h
    exact isEmpty_ofList (head?_dropEmptyEdges hl)
  last line h := by
    rw [docLines, List.getLast?_map] at h
    obtain ⟨l,hl,rfl⟩ := Option.map_eq_some_iff.mp h
    exact isEmpty_ofList (getLast?_rdropWhile hl)

/-! ## Tidy lines come back -/

theorem mem_intercalate {c sep : Char} {ls : List (List Char)} (h : c ∈ [sep].intercalate ls) :
    c = sep ∨ ∃ l ∈ ls, c ∈ l := by
  induction ls with
  | nil => simp at h
  | cons l ls ih =>
    cases ls with
    | nil =>
      rw [List.intercalate_singleton] at h
      exact .inr ⟨l,List.mem_cons_self,h⟩
    | cons next ls =>
      rw [List.intercalate_cons_cons, List.mem_append, List.mem_append, List.mem_singleton] at h
      rcases h with (h | h) | h
      · exact .inr ⟨l,List.mem_cons_self,h⟩
      · exact .inl h
      · refine (ih h).imp_right ?_
        rintro ⟨l',hl',hc⟩
        exact ⟨l',List.mem_cons_of_mem _ hl',hc⟩

theorem unifyBreaks_eq_self {cs : List Char} (h : '\r' ∉ cs) : unifyBreaks cs = cs := by
  fun_induction unifyBreaks cs with
  | case1 => rfl
  | case2 rest => exact absurd List.mem_cons_self h
  | case3 c rest _ ih =>
    obtain ⟨hc,hrest⟩ := not_or.mp (mt List.mem_cons.mpr h)
    rw [if_neg (Ne.symm hc), ih hrest]

theorem dropEmptyEdges_eq_self {ls : List (List Char)} (hfirst : ∀ l ∈ ls.head?, l.isEmpty = false)
    (hlast : ∀ l ∈ ls.getLast?, l.isEmpty = false) : dropEmptyEdges ls = ls := by
  have hfront : ls.dropWhile List.isEmpty = ls := by
    cases ls with
    | nil => rfl
    | cons l ls => rw [List.dropWhile_cons_of_neg (by simpa using hfirst l rfl)]
  rw [dropEmptyEdges_eq, hfront, List.rdropWhile_eq_self_iff]
  intro hne
  simpa using hlast _ (List.getLast?_eq_some_getLast hne)

theorem trimEnd_eq_self {cs : List Char} (h : ∀ c ∈ cs.getLast?, isBlank c = false) :
    trimEnd cs = cs := by
  refine List.rdropWhile_eq_self_iff.mpr fun hne => ?_
  simpa using h _ (List.getLast?_eq_some_getLast hne)

/-- Lines without line feeds, the last of them not empty, are the lines of their join. -/
theorem lines_intercalate {ls : List (List Char)} (h : ∀ l ∈ ls, '\n' ∉ l)
    (hlast : ∀ l ∈ ls.getLast?, l.isEmpty = false) : lines (['\n'].intercalate ls) = ls := by
  cases ls with
  | nil => rfl
  | cons l rest =>
    have hsplit := List.splitOn_intercalate '\n' h (List.cons_ne_nil l rest)
    rw [lines]
    simp only [hsplit]
    refine if_neg fun he => ?_
    exact absurd (hlast [] he) (by decide)

theorem isEmpty_toList {line : String} (h : line ≠ "") : line.toList.isEmpty = false := by
  simpa using h

theorem map_eq_self {α : Type} {f : α → α} {xs : List α} (h : ∀ x ∈ xs, f x = x) :
    xs.map f = xs := by
  rw [List.map_congr_left h, List.map_id']

theorem docLines_intercalate {ls : List String} (h : Tidy ls) :
    docLines ("\n".intercalate ls) = ls := by
  have hplain : ∀ l ∈ ls.map String.toList, ∀ c ∈ l, isControl c = true → c = '\t' :=
    List.forall_mem_map.mpr h.controls
  have hjoin : ∀ c ∈ ['\n'].intercalate (ls.map String.toList),
      isControl c = true → c = '\n' ∨ c = '\t' := by
    intro c hc hcontrol
    refine (mem_intercalate hc).imp_right ?_
    rintro ⟨l,hl,hc⟩
    exact hplain l hl c hc hcontrol
  have hreturn : '\r' ∉ ['\n'].intercalate (ls.map String.toList) := fun hc =>
    absurd (hjoin '\r' hc rfl) (by decide)
  have hfeed : ∀ l ∈ ls.map String.toList, '\n' ∉ l := fun l hl hc =>
    absurd (hplain l hl '\n' hc rfl) (by decide)
  have hends : ∀ l ∈ ls.map String.toList, trimEnd l = l :=
    List.forall_mem_map.mpr fun line hline => trimEnd_eq_self (h.ends line hline)
  have hfirst : ∀ l ∈ (ls.map String.toList).head?, l.isEmpty = false := by
    intro l hl
    rw [List.head?_map] at hl
    obtain ⟨line,hline,rfl⟩ := Option.map_eq_some_iff.mp hl
    exact isEmpty_toList (h.first line hline)
  have hlast : ∀ l ∈ (ls.map String.toList).getLast?, l.isEmpty = false := by
    intro l hl
    rw [List.getLast?_map] at hl
    obtain ⟨line,hline,rfl⟩ := Option.map_eq_some_iff.mp hl
    exact isEmpty_toList (h.last line hline)
  have hsep : "\n".toList = ['\n'] := rfl
  -- no step of the way to doc lines changes anything
  rw [docLines, String.toList_intercalate, hsep, unifyBreaks_eq_self hreturn,
    map_eq_self fun c hc => plainControl_eq_self (hjoin c hc), lines_intercalate hfeed hlast,
    map_eq_self hends, dropEmptyEdges_eq_self hfirst hlast, List.map_map]
  exact map_eq_self fun line _ => String.ofList_toList

/-! ## Visible characters -/

/-- Neither blank nor control. -/
def isVisible (c : Char) : Bool :=
  !isBlank c && !isControl c

theorem filter_unifyBreaks (cs : List Char) :
    (unifyBreaks cs).filter isVisible = cs.filter isVisible := by
  have hreturn : isVisible '\r' = false := rfl
  have hfeed : isVisible '\n' = false := rfl
  fun_induction unifyBreaks cs with
  | case1 => rfl
  | case2 rest ih => simp [hreturn, hfeed, ih]
  | case3 c rest _ ih =>
    rw [List.filter_cons, List.filter_cons, ih]
    split
    · rename_i hc
      rw [hc, hreturn, hfeed]
      rfl
    · rfl

theorem filter_map_plainControl (cs : List Char) :
    (cs.map plainControl).filter isVisible = cs.filter isVisible := by
  have hspace : isVisible ' ' = false := rfl
  induction cs with
  | nil => rfl
  | cons c cs ih =>
    rw [List.map_cons, List.filter_cons, List.filter_cons, ih, plainControl]
    split
    · rename_i hc
      have hc' : isVisible c = false := by simp [isVisible, hc.1]
      rw [hspace, hc']
      rfl
    · rfl

theorem filter_intercalate (sep : Char) {p : Char → Bool} (hs : p sep = false)
    (ls : List (List Char)) : ([sep].intercalate ls).filter p = ls.flatten.filter p := by
  induction ls with
  | nil => rfl
  | cons l ls ih =>
    cases ls with
    | nil => rw [List.intercalate_singleton, List.flatten_cons, List.flatten_nil, List.append_nil]
    | cons next ls =>
      rw [List.intercalate_cons_cons, List.filter_append, List.filter_append, ih,
        List.flatten_cons, List.filter_append, List.filter_singleton, hs]
      simp

theorem filter_lines (cs : List Char) :
    (lines cs).flatten.filter isVisible = cs.filter isVisible := by
  have hjoined : (cs.splitOn '\n').flatten.filter isVisible = cs.filter isVisible := by
    rw [← filter_intercalate '\n' rfl, List.intercalate_splitOn]
  rw [← hjoined]
  simp only [lines]
  split
  -- the last piece, which goes, has no characters
  · rename_i hlast
    conv_rhs => rw [← List.dropLast_append_getLast? [] hlast]
    simp
  · rfl

theorem filter_trimEnd (cs : List Char) :
    (trimEnd cs).filter isVisible = cs.filter isVisible := by
  have hblank : (cs.rtakeWhile isBlank).filter isVisible = [] := by
    refine List.filter_eq_nil_iff.mpr fun c hc => ?_
    simp [isVisible, List.mem_rtakeWhile_imp hc]
  conv_rhs => rw [← List.rdropWhile_append_rtakeWhile (p := isBlank) (l := cs)]
  rw [List.filter_append, hblank, List.append_nil]
  rfl

theorem flatten_dropEmptyEdges (ls : List (List Char)) :
    (dropEmptyEdges ls).flatten = ls.flatten := by
  let kept := ls.dropWhile List.isEmpty
  have hfront : (ls.takeWhile List.isEmpty).flatten = [] :=
    List.flatten_eq_nil_iff.mpr fun l hl => List.isEmpty_iff.mp (List.mem_takeWhile_imp hl)
  have hback : (kept.rtakeWhile List.isEmpty).flatten = [] :=
    List.flatten_eq_nil_iff.mpr fun l hl => List.isEmpty_iff.mp (List.mem_rtakeWhile_imp hl)
  calc (dropEmptyEdges ls).flatten
      = (kept.rdropWhile List.isEmpty ++ kept.rtakeWhile List.isEmpty).flatten := by
        rw [List.flatten_append, hback, List.append_nil, dropEmptyEdges_eq]
    _ = (ls.takeWhile List.isEmpty ++ kept).flatten := by
        rw [List.rdropWhile_append_rtakeWhile, List.flatten_append, hfront, List.nil_append]
    _ = ls.flatten := by rw [List.takeWhile_append_dropWhile]

theorem filter_docLines (text : String) :
    ((docLines text).flatMap String.toList).filter isVisible = text.toList.filter isVisible := by
  let ls := lines ((unifyBreaks text.toList).map plainControl)
  have htoList : (docLines text).map String.toList = dropEmptyEdges (ls.map trimEnd) := by
    rw [docLines, List.map_map]
    exact map_eq_self fun l _ => String.toList_ofList
  have htrimmed : (ls.map trimEnd).flatten.filter isVisible = ls.flatten.filter isVisible := by
    rw [List.filter_flatten, List.filter_flatten, List.map_map]
    exact congrArg List.flatten (List.map_congr_left fun l _ => filter_trimEnd l)
  calc ((docLines text).flatMap String.toList).filter isVisible
      = (ls.map trimEnd).flatten.filter isVisible := by
        rw [List.flatMap_def, htoList, flatten_dropEmptyEdges]
    _ = ((unifyBreaks text.toList).map plainControl).filter isVisible := by
        rw [htrimmed, filter_lines]
    _ = text.toList.filter isVisible := by rw [filter_map_plainControl, filter_unifyBreaks]

/-- The doc lines of a text are tidy and hold its visible characters in order. They are the doc
lines of their join too. -/
theorem doc_lines_settle (text : String) : Tidy (docLines text) ∧
    docLines ("\n".intercalate (docLines text)) = docLines text ∧
    ((docLines text).flatMap String.toList).filter isVisible = text.toList.filter isVisible :=
  ⟨tidy_docLines text,docLines_intercalate (tidy_docLines text),filter_docLines text⟩

example : docLines "\r\n one \rtwo\u2028\n\n\x07" = [" one","two"] := by decide

end ClientGen.Text
