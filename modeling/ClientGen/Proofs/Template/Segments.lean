import ClientGen.Proofs.Template.Cuts
import Mathlib.Data.List.Nodup

/-! # Placeholders by segment

As long as no placeholder runs across a slash, the placeholders of a path are those of its segments
in order, and the segment that a placeholder opens in is found by counting segments up to there.
-/
namespace ClientGen.Template

/-- The non-empty pieces between slashes. -/
def pieces (cs : List Char) : List (List Char) :=
  (cs.splitOn '/').filter (! ·.isEmpty)

theorem segments_eq (path : String) : segments path = (pieces path.toList).map String.ofList := rfl

theorem pieces_append (xs ys : List Char) : pieces (xs ++ '/' :: ys) = pieces xs ++ pieces ys := by
  rw [pieces, List.splitOn_append_cons_self, List.filter_append, pieces, pieces]

theorem pieces_of_not_mem {xs : List Char} (h : '/' ∉ xs) :
    pieces xs = if xs.isEmpty then [] else [xs] := by
  rw [pieces, List.splitOn_eq_singleton h]
  cases xs <;> rfl

/-- No placeholder runs across a slash. -/
def SlashFree (cs : List Char) : Prop :=
  ∀ n ∈ names cs, '/' ∉ n

/-- A brace that is not closed before a slash is not closed after it either. -/
theorem not_mem_of_unfilled {xs ys : List Char} (hx : Unfilled xs) (hb : '{' ∈ xs)
    (h : SlashFree (xs ++ '/' :: ys)) : '}' ∉ ys := by
  intro hclose
  obtain ⟨t,u,rfl,ht⟩ := List.eq_append_cons_of_mem hb
  obtain ⟨v,rest,rfl,hv⟩ := List.eq_append_cons_of_mem hclose
  have hn : '}' ∉ u ++ '/' :: v := by
    simp [hx t u rfl, hv]
  have he : t ++ '{' :: u ++ '/' :: (v ++ '}' :: rest) =
      t ++ '{' :: (u ++ '/' :: v) ++ '}' :: rest := by
    simp
  rw [SlashFree, he, names_cut ht hn] at h
  exact h _ List.mem_cons_self (List.mem_append_right _ List.mem_cons_self)

/-- Cutting at a slash changes no placeholder. -/
theorem cuts_slash {xs ys : List Char} (h : SlashFree (xs ++ '/' :: ys)) :
    names (xs ++ '/' :: ys) = names xs ++ names ys ∧
      (∀ k < (names xs).length, opening (xs ++ '/' :: ys) k = opening xs k) ∧
      ∀ k < (names ys).length,
        opening (xs ++ '/' :: ys) ((names xs).length + k) = xs ++ '/' :: opening ys k := by
  induction xs using cut_induction with
  | unfilled xs hx =>
    rw [names_unfilled hx]
    by_cases hb : '{' ∈ xs
    · have hy := not_mem_of_unfilled hx hb h
      obtain ⟨t,u,rfl,ht⟩ := List.eq_append_cons_of_mem hb
      have hwhole : Unfilled (t ++ '{' :: u ++ '/' :: ys) := by
        rw [List.append_assoc]
        exact unfilled_of_first ht (by simp [hx t u rfl, hy])
      rw [names_unfilled hwhole, names_unfilled (unfilled_of_not_closed hy)]
      simp
    · have hp : '{' ∉ xs ++ ['/'] := by simp [hb]
      have he : xs ++ '/' :: ys = (xs ++ ['/']) ++ ys := by simp
      rw [he, names_text_append hp]
      refine ⟨rfl,by simp,fun k hk => ?_⟩
      rw [List.length_nil, Nat.zero_add, opening_text_append hp ys hk]
      simp
  | cut t n rest ht hn ih =>
    have he : t ++ '{' :: n ++ '}' :: rest ++ '/' :: ys =
        t ++ '{' :: n ++ '}' :: (rest ++ '/' :: ys) := by
      simp
    rw [he] at h ⊢
    have hrest : SlashFree (rest ++ '/' :: ys) := by
      intro m hm
      exact h m (names_cut ht hn _ ▸ List.mem_cons_of_mem _ hm)
    obtain ⟨hnames,hleft,hright⟩ := ih hrest
    refine ⟨?_,fun k hk => ?_,fun k hk => ?_⟩
    · rw [names_cut ht hn, names_cut ht hn, hnames, List.cons_append]
    · rw [names_cut ht hn] at hk
      cases k with
      | zero => rw [opening_cut_zero ht hn, opening_cut_zero ht hn]
      | succ k =>
        rw [opening_cut_succ ht hn, opening_cut_succ ht hn, hleft k (Nat.lt_of_succ_lt_succ hk)]
    · rw [names_cut ht hn, List.length_cons, Nat.add_right_comm, opening_cut_succ ht hn,
        hright k hk]
      simp

@[elab_as_elim]
theorem slash_induction {motive : List Char → Prop} (piece : ∀ cs, '/' ∉ cs → motive cs)
    (slash : ∀ xs ys, '/' ∉ xs → motive ys → motive (xs ++ '/' :: ys)) (cs : List Char) :
    motive cs := by
  induction hl : cs.length using Nat.strongRecOn generalizing cs with
  | ind l ih =>
    by_cases hs : '/' ∈ cs
    · obtain ⟨xs,ys,rfl,hx⟩ := List.eq_append_cons_of_mem hs
      refine slash xs ys hx (ih ys.length ?_ ys rfl)
      simp only [← hl, List.length_append, List.length_cons]
      omega
    · exact piece cs hs

theorem SlashFree.of_slash {xs ys : List Char} (h : SlashFree (xs ++ '/' :: ys)) :
    SlashFree xs ∧ SlashFree ys := by
  obtain ⟨hnames,_⟩ := cuts_slash h
  rw [SlashFree, hnames] at h
  exact ⟨fun n hn => h n (List.mem_append_left _ hn),fun n hn => h n (List.mem_append_right _ hn)⟩

/-- Scanning segment by segment finds the placeholders that scanning the path finds. -/
theorem flatMap_names_pieces {cs : List Char} (h : SlashFree cs) :
    (pieces cs).flatMap names = names cs := by
  induction cs using slash_induction with
  | piece cs hs =>
    rw [pieces_of_not_mem hs]
    cases cs with
    | nil => rfl
    | cons c cs => simp
  | slash xs ys hx ih =>
    obtain ⟨hxs,hys⟩ := h.of_slash
    have hone : (pieces xs).flatMap names = names xs := by
      rw [pieces_of_not_mem hx]
      cases xs with
      | nil => rfl
      | cons c xs => simp
    rw [pieces_append, List.flatMap_append, hone, ih hys, (cuts_slash h).1]

theorem pieces_ne_nil {cs : List Char} {c : Char} (hc : c ∈ cs) (hne : c ≠ '/') :
    pieces cs ≠ [] := by
  induction cs using slash_induction with
  | piece cs hs =>
    rw [pieces_of_not_mem hs]
    cases cs with
    | nil => simp at hc
    | cons d cs => simp
  | slash xs ys hx ih =>
    rw [pieces_append]
    rcases List.mem_append.mp hc with hc | hc
    · rw [pieces_of_not_mem hx]
      cases xs with
      | nil => simp at hc
      | cons d xs => simp
    · have hy := ih ((List.mem_cons.mp hc).resolve_left hne)
      simp [hy]

/-- The position of the piece that the `k`-th placeholder opens in: the last one begun by then. -/
def holderAt (cs : List Char) (k : Nat) : Nat :=
  (pieces (opening cs k)).length - 1

theorem length_pieces_opening (cs : List Char) (k : Nat) :
    (pieces (opening cs k)).length = holderAt cs k + 1 := by
  have hmem : '{' ∈ opening cs k := List.mem_append_right _ (List.mem_singleton_self _)
  have hpos := List.length_pos_iff.mpr (pieces_ne_nil hmem (by decide))
  rw [holderAt]
  omega

theorem holderAt_piece {cs : List Char} (hs : '/' ∉ cs) {k : Nat} (hk : k < (names cs).length) :
    holderAt cs k = 0 ∧ pieces cs = [cs] := by
  obtain ⟨rest,he⟩ := eq_opening_append cs (List.getElem?_eq_getElem hk)
  have hopening : '/' ∉ opening cs k := by
    intro hmem
    rw [he] at hs
    exact hs (List.mem_append_left _ (List.mem_append_left _ hmem))
  have hlength := length_pieces_opening cs k
  rw [pieces_of_not_mem hopening] at hlength
  have hne : cs ≠ [] := by
    rintro rfl
    simp [opening] at he
  refine ⟨?_,?_⟩
  · split at hlength <;> simp at hlength
    exact hlength
  · rw [pieces_of_not_mem hs]
    simp [hne]

section
variable {xs ys : List Char} {k : Nat}

theorem holderAt_left (h : SlashFree (xs ++ '/' :: ys)) (hk : k < (names xs).length) :
    holderAt (xs ++ '/' :: ys) k = holderAt xs k := by
  rw [holderAt, (cuts_slash h).2.1 k hk, holderAt]

theorem holderAt_right (h : SlashFree (xs ++ '/' :: ys)) (hk : k < (names ys).length) :
    holderAt (xs ++ '/' :: ys) ((names xs).length + k) = (pieces xs).length + holderAt ys k := by
  rw [holderAt, (cuts_slash h).2.2 k hk, pieces_append, List.length_append,
    length_pieces_opening]
  omega

end

/-- Each placeholder of each piece, with what goes with the piece and its place in it. -/
def spots {α : Type} (cs : List Char) (along : List α) : List (α × Nat) :=
  ((pieces cs).zip along).flatMap fun (piece,a) => (names piece).zipIdx.map fun (_,i) => (a,i)

section
variable {α : Type} {cs xs ys : List Char}

theorem spots_slash (xs ys : List Char) {first rest : List α}
    (hl : first.length = (pieces xs).length) :
    spots (xs ++ '/' :: ys) (first ++ rest) = spots xs first ++ spots ys rest := by
  rw [spots, pieces_append, List.zip_append hl.symm, List.flatMap_append, spots, spots]

theorem spots_piece (hs : pieces cs = [cs]) (a : α) :
    spots cs [a] = (names cs).zipIdx.map fun (_,i) => (a,i) := by
  simp [spots, hs]

theorem length_flatMap_zip {ps : List (List Char)} {along : List α}
    (hl : along.length = ps.length) :
    ((ps.zip along).flatMap fun (p,a) => (names p).zipIdx.map fun (_,i) => (a,i)).length =
      (ps.flatMap names).length := by
  induction ps generalizing along with
  | nil => simp
  | cons p ps ih =>
    cases along with
    | nil => simp at hl
    | cons a along =>
      have hrest := ih (Nat.succ.inj hl)
      rw [List.zip_cons_cons, List.flatMap_cons, List.flatMap_cons, List.length_append, hrest,
        List.length_append, List.length_map, List.length_zipIdx]

theorem length_spots (h : SlashFree cs) {along : List α} (hl : along.length = (pieces cs).length) :
    (spots cs along).length = (names cs).length := by
  rw [spots, length_flatMap_zip hl, flatMap_names_pieces h]

theorem exists_spot_piece (hs : '/' ∉ cs) {along : List α} (hl : along.length = (pieces cs).length)
    {k : Nat} {n : List Char} (hk : (names cs)[k]? = some n) :
    ∃ a piece i, along[holderAt cs k]? = some a ∧ (pieces cs)[holderAt cs k]? = some piece ∧
      (names piece)[i]? = some n ∧ (spots cs along)[k]? = some (a,i) := by
  obtain ⟨hzero,hpieces⟩ := holderAt_piece hs (List.getElem?_eq_some_iff.mp hk).1
  rw [hpieces] at hl
  obtain ⟨a,rfl⟩ := List.length_eq_one_iff.mp hl
  refine ⟨a,cs,k,by simp [hzero],by simp [hzero, hpieces],hk,?_⟩
  rw [spots_piece hpieces]
  simp [hk]

/-- Counting placeholders piece by piece, the `k`-th is one of the piece that it opens in. -/
theorem exists_spot (h : SlashFree cs) {along : List α} (hl : along.length = (pieces cs).length)
    {k : Nat} {n : List Char} (hk : (names cs)[k]? = some n) :
    ∃ a piece i, along[holderAt cs k]? = some a ∧ (pieces cs)[holderAt cs k]? = some piece ∧
      (names piece)[i]? = some n ∧ (spots cs along)[k]? = some (a,i) := by
  induction cs using slash_induction generalizing along k with
  | piece cs hs => exact exists_spot_piece hs hl hk
  | slash xs ys hx ih =>
    obtain ⟨hxs,hys⟩ := h.of_slash
    rw [pieces_append, List.length_append] at hl
    obtain ⟨first,rest,rfl,hfirst⟩ : ∃ first rest : List α, along = first ++ rest ∧
        first.length = (pieces xs).length := by
      refine ⟨_,_,(List.take_append_drop (pieces xs).length along).symm,?_⟩
      rw [List.length_take]
      omega
    have hrest : rest.length = (pieces ys).length := by
      rw [List.length_append] at hl
      omega
    have hspots := length_spots hxs hfirst
    rw [(cuts_slash h).1] at hk
    rw [spots_slash xs ys hfirst, pieces_append]
    by_cases hlt : k < (names xs).length
    · rw [List.getElem?_append_left hlt] at hk
      obtain ⟨a,piece,i,ha,hp,hn,hspot⟩ := exists_spot_piece hx hfirst hk
      rw [holderAt_left h hlt]
      refine ⟨a,piece,i,?_,?_,hn,?_⟩
      · rw [List.getElem?_append_left (List.getElem?_eq_some_iff.mp ha).1, ha]
      · rw [List.getElem?_append_left (List.getElem?_eq_some_iff.mp hp).1, hp]
      · rw [List.getElem?_append_left (hspots ▸ hlt), hspot]
    · obtain ⟨k,rfl⟩ := Nat.exists_eq_add_of_le (Nat.le_of_not_lt hlt)
      rw [List.getElem?_append_right (Nat.le_add_right _ k), Nat.add_sub_cancel_left] at hk
      obtain ⟨a,piece,i,ha,hp,hn,hspot⟩ := ih hys hrest hk
      rw [holderAt_right h (List.getElem?_eq_some_iff.mp hk).1]
      refine ⟨a,piece,i,?_,?_,hn,?_⟩
      · rw [List.getElem?_append_right (hfirst ▸ Nat.le_add_right _ _), hfirst,
          Nat.add_sub_cancel_left, ha]
      · rw [List.getElem?_append_right (Nat.le_add_right _ _), Nat.add_sub_cancel_left, hp]
      · rw [List.getElem?_append_right (hspots ▸ Nat.le_add_right _ k), hspots,
          Nat.add_sub_cancel_left, hspot]

theorem fst_mem_of_mem_zip_spots {ps : List (List Char)} {along : List α} {x : α × Nat}
    (h : x ∈ (ps.zip along).flatMap fun (p,a) => (names p).zipIdx.map fun (_,i) => (a,i)) :
    x.1 ∈ along := by
  obtain ⟨⟨p,a⟩,hz,hx⟩ := List.mem_flatMap.mp h
  obtain ⟨_,_,rfl⟩ := List.mem_map.mp hx
  exact (List.of_mem_zip hz).2

/-- No two placeholders have one spot. -/
theorem nodup_spots (cs : List Char) {along : List α} (h : along.Nodup) :
    (spots cs along).Nodup := by
  rw [spots]
  induction pieces cs generalizing along with
  | nil => simp
  | cons p ps ih =>
    cases along with
    | nil => simp
    | cons a along =>
      obtain ⟨ha,hrest⟩ := List.nodup_cons.mp h
      rw [List.zip_cons_cons, List.flatMap_cons, List.nodup_append]
      refine ⟨?_,ih hrest,fun x hx y hy => ?_⟩
      · refine List.Nodup.of_map Prod.snd ?_
        have hsnd : Prod.snd ∘ (fun x : List Char × Nat => (a,x.2)) = Prod.snd := rfl
        rw [List.map_map, hsnd, List.zipIdx_map_snd]
        exact List.nodup_range'
      · rintro rfl
        obtain ⟨_,_,rfl⟩ := List.mem_map.mp hx
        exact ha (fst_mem_of_mem_zip_spots hy)

end

/-! ## Paths -/

/-- The position of the segment that the `k`-th placeholder of a path opens in. -/
def holder (path : String) (k : Nat) : Nat :=
  holderAt path.toList k

theorem placeholders_ofList (cs : List Char) :
    placeholders (String.ofList cs) = (names cs).map String.ofList := by
  rw [placeholders_eq, String.toList_ofList]

theorem slashFree_of_placeholders {path : String}
    (h : ∀ name ∈ placeholders path, '/' ∉ name.toList) : SlashFree path.toList := by
  intro n hn
  have hname := h (String.ofList n) (placeholders_eq path ▸ List.mem_map_of_mem hn)
  rwa [String.toList_ofList] at hname

end ClientGen.Template
