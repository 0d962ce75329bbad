import ClientGen.Proofs.Ident.Reserve

/-! # Least free suffixes

A base that is taken gets a suffix, and suffixes are tried one after the other, without a bound. The
candidates of a base all differ, so no more of them are taken than there are names in use, and the
search ends. Name by name, this tells what a scope hands out for bases in turn.
-/
namespace ClientGen.Ident

/-! ## The search -/

/-- Trying one suffix after the other from the first number on ends at the second: its candidate is
free, and the candidates on the way were taken. -/
inductive EndsAt (candidate : Nat → String) (used : List String) : Nat → Nat → Prop
  | free {n : Nat} (h : candidate n ∉ used) : EndsAt candidate used n n
  | taken {n m : Nat} (h : candidate n ∈ used) (rest : EndsAt candidate used (n + 1) m) :
      EndsAt candidate used n m

section
variable {candidate : Nat → String} {used : List String}

theorem EndsAt.isLeast {n m : Nat} (h : EndsAt candidate used n m) :
    IsLeast {i | n ≤ i ∧ candidate i ∉ used} m := by
  induction h with
  | free h => exact ⟨⟨le_rfl,h⟩,fun i hi => hi.1⟩
  | @taken n m h _ ih =>
    -- a suffix with a free candidate is not `n`, so the rest of the search bounds it
    obtain ⟨⟨hn,hm⟩,hleast⟩ := ih
    refine ⟨⟨(Nat.le_succ n).trans hn,hm⟩,fun i hi => hleast ⟨?_,hi.2⟩⟩
    have hne : n ≠ i := by
      rintro rfl
      exact hi.2 h
    exact Nat.succ_le_of_lt (lt_of_le_of_ne hi.1 hne)

theorem endsAt_of_taken {n m : Nat} (hn : n ≤ m) (hm : candidate m ∉ used)
    (h : ∀ i, n ≤ i → i < m → candidate i ∈ used) : EndsAt candidate used n m := by
  induction hn using Nat.decreasingInduction with
  | self => exact .free hm
  | of_succ k hk ih =>
    exact .taken (h k le_rfl hk) (ih fun i hi => h i ((Nat.le_succ k).trans hi))

/-- The search passes no more candidates than there are names in use. -/
theorem EndsAt.le_add_card (hc : Function.Injective candidate) {n m : Nat}
    (h : EndsAt candidate used n m) : m ≤ n + used.toFinset.card := by
  -- the candidates on the way are as many names in use
  have hpassed : (Finset.Ico n m).image candidate ⊆ used.toFinset := by
    intro name hname
    obtain ⟨i,hi,rfl⟩ := Finset.mem_image.mp hname
    obtain ⟨hni,him⟩ := Finset.mem_Ico.mp hi
    by_contra hfree
    have hle := h.isLeast.2 ⟨hni,fun hmem => hfree (List.mem_toFinset.mpr hmem)⟩
    exact absurd him (Nat.not_lt.mpr hle)
  have hcard := Finset.card_le_card hpassed
  rw [Finset.card_image_of_injective _ hc, Nat.card_Ico] at hcard
  omega

/-- The search from the suffix 2 on ends at the first free candidate. -/
theorem exists_endsAt_firstFree (hc : Function.Injective candidate) (used : List String) :
    ∃ n, EndsAt candidate used 2 n ∧ firstFree candidate used = candidate n := by
  obtain ⟨i,he,hfree,hbefore⟩ := exists_firstFree hc used
  refine ⟨i + 2,endsAt_of_taken (Nat.le_add_left 2 i) hfree fun j hj hji => ?_,he⟩
  obtain ⟨j,rfl⟩ := Nat.exists_eq_add_of_le' hj
  exact hbefore j (Nat.lt_of_add_lt_add_right hji)

end

/-! ## One name -/

/-- A name for a base among the names in use: the base itself if it is free, and otherwise the
candidate with the least free suffix, which the search comes to. -/
structure NameFor (candidate : Nat → String) (used : List String) (base name : String) : Prop where
  unchanged_iff : name = base ↔ base ∉ used
  least : base ∈ used → ∃ n, EndsAt candidate used 2 n ∧ n ≤ 2 + used.toFinset.card ∧
    IsLeast {i | 2 ≤ i ∧ candidate i ∉ used} n ∧ name = candidate n

theorem nameFor_firstFree {candidate : Nat → String} (hc : Function.Injective candidate)
    (used : List String) (base : String) : NameFor candidate used base
      (if used.contains base then firstFree candidate used else base) where
  unchanged_iff := by
    split
    · rename_i h
      have hfree := firstFree_not_mem hc used
      have htaken : base ∈ used := by simpa using h
      refine iff_of_false (fun he => ?_) (not_not_intro htaken)
      exact hfree (he.symm ▸ htaken)
    · rename_i h
      exact iff_of_true rfl (by simpa using h)
  least h := by
    obtain ⟨n,hn,he⟩ := exists_endsAt_firstFree hc used
    rw [if_pos (by simpa using h)]
    exact ⟨n,hn,hn.le_add_card hc,hn.isLeast,he⟩

/-! ## Whole scopes -/

section
variable {give : String → List String → String × List String}

/-- The names in use after the bases have been given names in turn. -/
def usedAfter (give : String → List String → String × List String) (used bases : List String) :
    List String :=
  bases.foldl (fun used base => (give base used).2) used

theorem usedAfter_eq (hg : HandsOutFresh give) (used bases : List String) :
    usedAfter give used bases = (reserveAll give used bases).reverse ++ used := by
  induction bases generalizing used with
  | nil => rfl
  | cons base rest ih =>
    have hrest := ih (give base used).2
    have hcons : reserveAll give used (base :: rest) =
        (give base used).1 :: reserveAll give (give base used).2 rest := rfl
    rw [usedAfter, List.foldl_cons, ← usedAfter, hrest, hcons, hg.keeps]
    simp

theorem reserveAll_take (used bases : List String) (k : Nat) :
    reserveAll give used (bases.take k) = (reserveAll give used bases).take k := by
  induction bases generalizing used k with
  | nil => simp [reserveAll]
  | cons base rest ih =>
    cases k with
    | zero => rfl
    | succ k => simp [reserveAll, ih]

theorem getElem?_reserveAll (used bases : List String) (k : Nat) :
    (reserveAll give used bases)[k]? =
      bases[k]?.map fun base => (give base (usedAfter give used (bases.take k))).1 := by
  induction bases generalizing used k with
  | nil => rfl
  | cons base rest ih =>
    cases k with
    | zero => rfl
    | succ k =>
      simp only [reserveAll, List.getElem?_cons_succ, ih, List.take_succ_cons]
      rfl

theorem mem_usedAfter (hg : HandsOutFresh give) {used bases : List String} {name : String} :
    name ∈ usedAfter give used bases ↔ name ∈ used ∨ name ∈ reserveAll give used bases := by
  rw [usedAfter_eq hg, List.mem_append, List.mem_reverse, or_comm]

end

/-- Names handed out in turn: one for each base, all new and distinct, each in use from then on. -/
structure Reservation (candidate : String → Nat → String)
    (give : String → List String → String × List String) (used bases : List String) : Prop where
  each : ∀ k base, bases[k]? = some base → ∃ name, (reserveAll give used bases)[k]? = some name ∧
    NameFor (candidate base) (usedAfter give used (bases.take k)) base name
  length : (reserveAll give used bases).length = bases.length
  nodup : (reserveAll give used bases).Nodup
  fresh : ∀ name ∈ reserveAll give used bases, name ∉ used
  during : ∀ k name, name ∈ usedAfter give used (bases.take k) ↔
    name ∈ used ∨ name ∈ (reserveAll give used bases).take k
  after : ∀ name, name ∈ usedAfter give used bases ↔ name ∈ used ∨ name ∈ reserveAll give used bases

theorem HandsOutFresh.reservation {give : String → List String → String × List String}
    (hg : HandsOutFresh give) {candidate : String → Nat → String}
    (hname : ∀ base used, NameFor (candidate base) used base (give base used).1)
    (used bases : List String) : Reservation candidate give used bases where
  each k base hbase := by
    refine ⟨_,?_,hname base _⟩
    rw [getElem?_reserveAll, hbase, Option.map_some]
  length := length_reserveAll used bases
  nodup := hg.nodup_reserveAll used bases
  fresh _ h := hg.not_mem_of_mem_reserveAll h
  during k name := by rw [mem_usedAfter hg, reserveAll_take]
  after _ := mem_usedAfter hg

/-- The least free suffixes of bare forms, with an underscore, and of type names tell what a scope
hands out, whichever names are in use and whichever bases come in turn. -/
theorem scope_reserved (used bases : List String) :
    Reservation (fun base n => unraw base ++ "_" ++ toString n) reserve used bases ∧
    Reservation (fun base n => base ++ toString n) reserveType used bases := by
  constructor
  · refine reserve_fresh.reservation (fun base used => ?_) used bases
    exact nameFor_firstFree (suffixed_injective (unraw base ++ "_")) used base
  · refine reserveType_fresh.reservation (fun base used => ?_) used bases
    exact nameFor_firstFree (suffixed_injective base) used base

example : reserveAll reserve ["id"] ["id_2","id","r#type","r#type","id"] =
    ["id_2","id_3","r#type","type_2","id_4"] := by decide

end ClientGen.Ident
