import ClientGen.Delivery.Path
import ClientGen.Proofs.Template.Segments

/-! # Names beside each other

A parent is the text of a path up to its last component, and a name joined to a path is one more
component. So the file for the unformatted text of an artifact stands in the artifact's folder.
-/
namespace ClientGen.Path

/-! ## Components of text -/

/-- A name that is one component wherever it stands. -/
structure Plain (name : String) : Prop where
  slash_not_mem : '/' ∉ name.toList
  ne_empty : name.toList ≠ []
  ne_current : name.toList ≠ ['.']
  ne_parent : name.toList ≠ ['.','.']

theorem componentsFrom_piece {piece : List Char} (h : '/' ∉ piece) (first : Bool) (start : Nat) :
    componentsFrom first start (piece.splitOn '/') =
      ((partOf first piece).map fun part => ⟨part,start,start + piece.length⟩).toList := by
  rw [List.splitOn_eq_singleton h, componentsFrom, componentsFrom]
  cases partOf first piece <;> rfl

theorem componentsFrom_slash {piece : List Char} (h : '/' ∉ piece) (first : Bool) (start : Nat)
    (rest : List Char) : componentsFrom first start ((piece ++ '/' :: rest).splitOn '/') =
      ((partOf first piece).map fun part => ⟨part,start,start + piece.length⟩).toList ++
        componentsFrom false (start + piece.length + 1) (rest.splitOn '/') := by
  rw [List.splitOn_append_cons_self, List.splitOn_eq_singleton h, List.singleton_append,
    componentsFrom]
  cases partOf first piece <;> rfl

theorem componentsFrom_append (first : Bool) (start : Nat) (u v : List Char) :
    componentsFrom first start ((u ++ '/' :: v).splitOn '/') =
      componentsFrom first start (u.splitOn '/') ++
        componentsFrom false (start + u.length + 1) (v.splitOn '/') := by
  induction u using Template.slash_induction generalizing first start with
  | piece u hu => rw [componentsFrom_slash hu, componentsFrom_piece hu]
  | slash xs ys hx ih =>
    rw [List.append_assoc, List.cons_append, componentsFrom_slash hx, ih, componentsFrom_slash hx,
      List.append_assoc, List.length_append, List.length_cons]
    congr 3
    omega

theorem Plain.componentsFrom {name : String} (h : Plain name) (first : Bool) (start : Nat) :
    componentsFrom first start (name.toList.splitOn '/') =
      [⟨.name name,start,start + name.toList.length⟩] := by
  have hpart : partOf first name.toList = some (.name name) := by
    simp [partOf, h.ne_empty, h.ne_current, h.ne_parent]
  rw [componentsFrom_piece h.slash_not_mem, hpart]
  rfl

theorem pos_of_partOf {first : Bool} {piece : List Char} {part : Part}
    (h : partOf first piece = some part) : 0 < piece.length := by
  refine List.length_pos_iff.mpr ?_
  rintro rfl
  simp [partOf] at h

/-- The text up to the end of a component has the components up to this one. -/
theorem componentsFrom_take {first : Bool} {start : Nat} {cs : List Char} {xs ys : List Component}
    {b : Component} (h : componentsFrom first start (cs.splitOn '/') = xs ++ b :: ys) :
    start < b.stop ∧ b.stop ≤ start + cs.length ∧
      componentsFrom first start ((cs.take (b.stop - start)).splitOn '/') = xs ++ [b] := by
  induction cs using Template.slash_induction generalizing first start xs with
  | piece cs hs =>
    have hwhole := h
    rw [componentsFrom_piece hs] at h
    cases hpart : partOf first cs with
    | none => simp [hpart] at h
    | some part =>
      have hpos := pos_of_partOf hpart
      simp only [hpart, Option.map_some, Option.toList_some] at h
      rcases List.singleton_eq_append_iff.mp h with ⟨rfl,hb⟩ | ⟨_,hb⟩
      · obtain ⟨rfl,rfl⟩ := List.cons_eq_cons.mp hb
        simpa using ⟨hpos,hwhole⟩
      · simp at hb
  | slash piece rest hp ih =>
    rw [componentsFrom_slash hp] at h
    -- where the component comes after the first slash
    have hlater : ∀ {zs}, componentsFrom false (start + piece.length + 1) (rest.splitOn '/') =
        zs ++ b :: ys → start < b.stop ∧ b.stop ≤ start + (piece ++ '/' :: rest).length ∧
          componentsFrom first start
              (((piece ++ '/' :: rest).take (b.stop - start)).splitOn '/') =
            ((partOf first piece).map fun part => ⟨part,start,start + piece.length⟩).toList ++
              (zs ++ [b]) := by
      intro zs hzs
      obtain ⟨hlt,hle,htake⟩ := ih hzs
      have hsplit : (piece ++ '/' :: rest).take (b.stop - start) =
          piece ++ '/' :: rest.take (b.stop - (start + piece.length + 1)) := by
        have hsum : b.stop - start = piece.length + (b.stop - (start + piece.length + 1) + 1) := by
          omega
        rw [hsum, List.take_length_add_append, List.take_succ_cons]
      refine ⟨by omega,?_,?_⟩
      · rw [List.length_append, List.length_cons]
        omega
      · rw [hsplit, componentsFrom_slash hp, htake]
    cases hpart : partOf first piece with
    | none =>
      rw [hpart] at h hlater
      exact hlater h
    | some part =>
      rw [hpart] at h hlater
      rcases List.cons_eq_append_iff.mp h with ⟨rfl,hb⟩ | ⟨zs,rfl,hzs⟩
      · obtain ⟨rfl,_⟩ := List.cons_eq_cons.mp hb
        have hpos := pos_of_partOf hpart
        refine ⟨?_,?_,?_⟩
        · show start < start + piece.length
          omega
        · simp
        · rw [Nat.add_sub_cancel_left, List.take_left, componentsFrom_piece hp, hpart]
          rfl
      · exact hlater hzs

/-! ## Components of paths -/

theorem isAbsolute_eq_true {p : Path} : isAbsolute p = true ↔ ∃ cs, p.toList = '/' :: cs := by
  rw [isAbsolute, decide_eq_true_iff]
  cases p.toList <;> simp

theorem components_of_absolute {p : Path} {cs : List Char} (h : p.toList = '/' :: cs) :
    components p = ⟨.root,0,1⟩ :: componentsFrom false 1 (cs.splitOn '/') := by
  rw [components, if_pos (isAbsolute_eq_true.mpr ⟨cs,h⟩), h]
  rfl

theorem components_of_relative {p : Path} (h : p.toList.head? ≠ some '/') :
    components p = componentsFrom true 0 (p.toList.splitOn '/') := by
  rw [components, isAbsolute, decide_eq_false h]
  rfl

/-- The text up to the end of a component is a path with the components up to this one. -/
theorem components_slice {p : Path} {xs ys : List Component} {b : Component}
    (h : components p = xs ++ b :: ys) : 0 < b.stop ∧ b.stop ≤ p.toList.length ∧
      components (slice p 0 b.stop) = xs ++ [b] := by
  have hslice : (slice p 0 b.stop).toList = p.toList.take b.stop := by simp [slice]
  by_cases habsolute : p.toList.head? = some '/'
  · obtain ⟨cs,hcs⟩ : ∃ cs, p.toList = '/' :: cs := List.head?_eq_some_iff.mp habsolute
    rw [components_of_absolute hcs] at h
    rcases List.cons_eq_append_iff.mp h with ⟨rfl,hb⟩ | ⟨zs,rfl,hzs⟩
    · obtain ⟨rfl,_⟩ := List.cons_eq_cons.mp hb
      refine ⟨Nat.one_pos,by simp [hcs],?_⟩
      have htop : (slice p 0 1).toList = '/' :: [] := by rw [hslice, hcs, List.take_succ_cons]; rfl
      rw [components_of_absolute htop]
      simp [componentsFrom, partOf]
    · obtain ⟨hlt,hle,htake⟩ := componentsFrom_take hzs
      obtain ⟨k,hk⟩ : ∃ k, b.stop = k + 1 := ⟨b.stop - 1,by omega⟩
      refine ⟨by omega,by rw [hcs, List.length_cons]; omega,?_⟩
      rw [hcs, hk, List.take_succ_cons] at hslice
      rw [hk, Nat.add_sub_cancel] at htake
      rw [hk, components_of_absolute hslice, htake]
      rfl
  · rw [components_of_relative habsolute] at h
    obtain ⟨hlt,hle,htake⟩ := componentsFrom_take h
    refine ⟨hlt,by simpa using hle,?_⟩
    rw [Nat.sub_zero] at htake
    rw [components_of_relative, hslice, htake]
    rw [hslice, List.head?_take, if_neg (Nat.ne_of_gt hlt)]
    exact habsolute

theorem components_append {p q : Path} {v : List Char} (hp : p.toList ≠ [])
    (hq : q.toList = p.toList ++ '/' :: v) : components q =
      components p ++ componentsFrom false (p.toList.length + 1) (v.splitOn '/') := by
  by_cases habsolute : p.toList.head? = some '/'
  · obtain ⟨u,hu⟩ : ∃ u, p.toList = '/' :: u := List.head?_eq_some_iff.mp habsolute
    rw [hu, List.cons_append] at hq
    rw [components_of_absolute hq, components_of_absolute hu, componentsFrom_append, hu,
      List.cons_append, List.length_cons, Nat.add_comm 1]
  · have hrelative : q.toList.head? ≠ some '/' := by
      rwa [hq, List.head?_append_of_ne_nil _ hp]
    rw [components_of_relative hrelative, components_of_relative habsolute, hq,
      componentsFrom_append, Nat.zero_add]

theorem components_slash {p q : Path} (hp : p.toList ≠ []) (hq : q.toList = p.toList ++ ['/']) :
    components q = components p := by
  rw [components_append hp hq, List.splitOn_nil]
  exact List.append_nil _

theorem Plain.isAbsolute_eq {name : String} (h : Plain name) : isAbsolute name = false :=
  decide_eq_false fun hslash => h.slash_not_mem (List.mem_of_head? hslash)

/-- A name joined to a path is one more component, and the path's text stays in front. -/
theorem components_join (base : Path) {name : String} (h : Plain name) :
    (∃ start stop,
      components (join base name) = components base ++ [⟨.name name,start,stop⟩]) ∧
      base.toList <+: (join base name).toList := by
  have hone := h.componentsFrom
  unfold join
  split
  · rename_i hempty
    rw [h.isAbsolute_eq, Bool.false_or, String.isEmpty_iff] at hempty
    subst hempty
    have hrelative : name.toList.head? ≠ some '/' := of_decide_eq_false h.isAbsolute_eq
    exact ⟨⟨_,_,(components_of_relative hrelative).trans (hone true 0)⟩,List.nil_prefix⟩
  · rename_i hnonempty
    have hbase : base.toList ≠ [] := by
      intro hnil
      rw [h.isAbsolute_eq, Bool.false_or, String.isEmpty_iff] at hnonempty
      exact hnonempty (String.toList_eq_nil_iff.mp hnil)
    split
    · rename_i hlast
      obtain ⟨u,hu⟩ := List.getLast?_eq_some_iff.mp hlast
      have htext : (base ++ name).toList = u ++ '/' :: name.toList := by
        rw [String.toList_append, hu, List.append_assoc, List.singleton_append]
      refine ⟨?_,String.toList_append ▸ List.prefix_append _ _⟩
      by_cases hnil : u = []
      · rw [hnil] at hu htext
        refine ⟨1,1 + name.toList.length,?_⟩
        rw [components_of_absolute htext, components_of_absolute hu, hone false 1]
        simp [componentsFrom, partOf]
      · have hroom : (String.ofList u).toList ≠ [] := by rwa [String.toList_ofList]
        refine ⟨u.length + 1,u.length + 1 + name.toList.length,?_⟩
        have hbefore : base.toList = (String.ofList u).toList ++ ['/'] := by
          rw [String.toList_ofList, hu]
        have hwhole : (base ++ name).toList = (String.ofList u).toList ++ '/' :: name.toList := by
          rw [String.toList_ofList, htext]
        rw [components_append hroom hwhole, components_slash hroom hbefore, hone,
          String.toList_ofList]
    · have htext : (base ++ "/" ++ name).toList = base.toList ++ '/' :: name.toList := by
        rw [String.toList_append, String.toList_append, List.append_assoc]
        rfl
      refine ⟨⟨base.toList.length + 1,base.toList.length + 1 + name.toList.length,?_⟩,
        htext ▸ List.prefix_append _ _⟩
      rw [components_append hbase htext, hone]

/-! ## Parents and names -/

theorem components_empty : components "" = [] := by
  simp [components, isAbsolute, componentsFrom, partOf]

theorem fileName?_of_components {p : Path} {cs : List Component} {name : String} {start stop : Nat}
    (h : components p = cs ++ [⟨.name name,start,stop⟩]) : fileName? p = some name := by
  rw [fileName?, h, List.getLast?_concat]

theorem exists_of_fileName? {p : Path} {name : String} (h : fileName? p = some name) :
    ∃ cs start stop, components p = cs ++ [⟨.name name,start,stop⟩] := by
  unfold fileName? at h
  split at h
  · rename_i text start stop hlast
    obtain ⟨cs,hcs⟩ := List.getLast?_eq_some_iff.mp hlast
    exact ⟨cs,start,stop,Option.some.inj h ▸ hcs⟩
  · simp at h

/-- The parent of a path that ends in a name is the text up to the component before. -/
theorem parent?_of_components {p : Path} {cs : List Component} {name : String} {start stop : Nat}
    (h : components p = cs ++ [⟨.name name,start,stop⟩]) :
    parent? p = some ((cs.getLast?.map fun b => slice p 0 b.stop).getD "") := by
  rw [parent?, h, List.reverse_append, List.reverse_singleton, List.singleton_append]
  rcases List.eq_nil_or_concat cs with rfl | ⟨xs,b,rfl⟩
  · rfl
  · rw [List.concat_eq_append, List.reverse_append, List.getLast?_concat]
    rfl

/-- The parent has all components but the last, and ends where the last of these ends. -/
theorem exists_parent {p : Path} {name : String} (h : fileName? p = some name) :
    ∃ f start stop, parent? p = some f ∧
      components p = components f ++ [⟨.name name,start,stop⟩] ∧
      (f = "" ∨ ∃ b, (components f).getLast? = some b ∧ b.stop = f.toList.length) := by
  obtain ⟨cs,start,stop,hcs⟩ := exists_of_fileName? h
  refine ⟨_,start,stop,parent?_of_components hcs,?_⟩
  rcases List.eq_nil_or_concat cs with rfl | ⟨xs,b,rfl⟩
  · rw [List.getLast?_nil, Option.map_none, Option.getD_none, components_empty]
    exact ⟨hcs,.inl rfl⟩
  · rw [List.concat_eq_append] at hcs
    have hsplit : components p = xs ++ b :: [⟨.name name,start,stop⟩] := by
      rw [hcs, List.append_assoc, List.singleton_append]
    obtain ⟨_,hle,hslice⟩ := components_slice hsplit
    rw [List.concat_eq_append, List.getLast?_concat, Option.map_some, Option.getD_some, hslice]
    refine ⟨hcs,.inr ⟨b,List.getLast?_concat,?_⟩⟩
    simp [slice, Nat.min_eq_left hle]

/-- Names of components have no slash. -/
theorem slash_not_mem_of_mem_componentsFrom {first : Bool} {start : Nat} {cs : List Char}
    {c : Component} (hc : c ∈ componentsFrom first start (cs.splitOn '/')) {name : String}
    (hname : c.part = .name name) : '/' ∉ name.toList := by
  have hpiece : ∀ {piece : List Char} {first : Bool} {start stop : Nat}, '/' ∉ piece →
      c ∈ ((partOf first piece).map fun part => (⟨part,start,stop⟩ : Component)).toList →
        '/' ∉ name.toList := by
    intro piece first start stop hslash hmem
    rw [Option.mem_toList, Option.map_eq_some_iff] at hmem
    obtain ⟨part,hpart,rfl⟩ := hmem
    obtain rfl : part = .name name := hname
    have htext : name.toList = piece := by
      unfold partOf at hpart
      split_ifs at hpart
      all_goals simp at hpart
      rw [← hpart, String.toList_ofList]
    exact htext ▸ hslash
  induction cs using Template.slash_induction generalizing first start with
  | piece cs hs =>
    rw [componentsFrom_piece hs] at hc
    exact hpiece hs hc
  | slash piece rest hp ih =>
    rw [componentsFrom_slash hp] at hc
    rcases List.mem_append.mp hc with hc | hc
    · exact hpiece hp hc
    · exact ih hc

theorem slash_not_mem_of_mem_components {p : Path} {c : Component} (hc : c ∈ components p)
    {name : String} (hname : c.part = .name name) : '/' ∉ name.toList := by
  unfold components at hc
  split at hc
  · rcases List.mem_cons.mp hc with rfl | hc
    · simp at hname
    · exact slash_not_mem_of_mem_componentsFrom hc hname
  · exact slash_not_mem_of_mem_componentsFrom hc hname

theorem slash_not_mem_of_fileName? {p : Path} {name : String} (h : fileName? p = some name) :
    '/' ∉ name.toList := by
  obtain ⟨cs,start,stop,hcs⟩ := exists_of_fileName? h
  have hmem : ⟨.name name,start,stop⟩ ∈ components p :=
    hcs ▸ List.mem_append_right _ List.mem_cons_self
  exact slash_not_mem_of_mem_components hmem rfl

/-! ## The unformatted sibling -/

theorem plain_unformatted (name : String) (h : '/' ∉ name.toList) :
    Plain (name ++ ".unformatted") := by
  have htext : (name ++ ".unformatted").toList = name.toList ++ ".unformatted".toList :=
    String.toList_append
  have hlength : 12 ≤ (name ++ ".unformatted").toList.length := by
    rw [htext, List.length_append]
    exact Nat.le_add_left 12 _
  constructor
  · rw [htext, List.mem_append, not_or]
    exact ⟨h,by decide⟩
  all_goals
    intro he
    rw [he] at hlength
    simp at hlength

theorem fileName?_unformatted (p : Path) :
    fileName? (unformatted p) = some ((fileName? p).getD "" ++ ".unformatted") := by
  have hplain : Plain ((fileName? p).getD "" ++ ".unformatted") := by
    refine plain_unformatted _ ?_
    cases h : fileName? p with
    | none => exact List.not_mem_nil
    | some name => exact slash_not_mem_of_fileName? h
  unfold unformatted withFileName
  split
  · obtain ⟨⟨start,stop,hcomponents⟩,_⟩ := components_join ((parent? p).getD "") hplain
    exact fileName?_of_components hcomponents
  · obtain ⟨⟨start,stop,hcomponents⟩,_⟩ := components_join p hplain
    exact fileName?_of_components hcomponents

/-- The unformatted text of a file stands in the file's folder. -/
theorem parent?_unformatted {p : Path} {name : String} (h : fileName? p = some name) :
    parent? (unformatted p) = parent? p := by
  have hplain := plain_unformatted name (slash_not_mem_of_fileName? h)
  obtain ⟨f,_,_,hparent,_,hends⟩ := exists_parent h
  obtain ⟨⟨start,stop,hcomponents⟩,hpre⟩ := components_join f hplain
  have hsibling : unformatted p = join f (name ++ ".unformatted") := by
    rw [unformatted, withFileName, h, hparent]
    rfl
  rw [hsibling, hparent, parent?_of_components hcomponents]
  rcases hends with rfl | ⟨b,hb,hstop⟩
  · rw [components_empty]
    rfl
  · have htext : slice (join f (name ++ ".unformatted")) 0 b.stop = f := by
      rw [slice, hstop, List.drop_zero, ← List.prefix_iff_eq_take.mp hpre, String.ofList_toList]
    rw [hb, Option.map_some, htext]
    rfl

end ClientGen.Path
