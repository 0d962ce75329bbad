import ClientGen.Data.Shape
import ClientGen.Proofs.Data.Dict
import Mathlib.Data.List.Nodup

/-! # Order of members

Two trees can differ in the order in which their objects list members. A layout says in which places
the order counts. A reader that looks at no order elsewhere reads the same off both trees, and so
does every reader that is made of such readers.
-/
namespace ClientGen

/-- Places in trees: where the members and items of what stands at a place stand, and the places
whose objects have their members in an order that counts. -/
structure Layout (ζ : Type) where
  member : ζ → String → ζ
  item : ζ → Nat → ζ
  ordered : ζ → Prop

namespace Tree
variable {ζ : Type} {L : Layout ζ} {z : ζ} {t t' : Tree} {ms ms' : List (Key × Tree)}
  {ns names : List String} {α : Type}

/-! ## Reordered trees -/

/-- A value without parts. -/
def isLeaf : Tree → Bool
  | scalar _ _ | list _ | object _ => false
  | _ => true

/-- Each member has one of the names, and no two have the same. -/
structure Named (names : List String) (ms : List (Key × Tree)) : Prop where
  keys : ms.map (·.1) = names.map Key.text
  nodup : names.Nodup

/-- The trees have the same values under the same names, and no name twice in one object. Only the
order of members may differ, and not in the places where it counts. -/
inductive Reordered (L : Layout ζ) : ζ → Tree → Tree → Prop
  | leaf {z : ζ} {t : Tree} (h : t.isLeaf = true) : Reordered L z t t
  | list {z : ζ} {ts ts' : List Tree} (hlength : ts.length = ts'.length)
      (hitems : ∀ i t t', ts[i]? = some t → ts'[i]? = some t' → Reordered L (L.item z i) t t') :
    Reordered L z (list ts) (list ts')
  | object {z : ζ} {ms ms' : List (Key × Tree)} {names names' : List String}
      (hnamed : Named names ms) (hnamed' : Named names' ms') (hperm : names.Perm names')
      (hordered : L.ordered z → names = names')
      (hvalues : ∀ name t t', (Key.text name,t) ∈ ms → (Key.text name,t') ∈ ms' →
        Reordered L (L.member z name) t t') :
    Reordered L z (object ms) (object ms')

/-! ## Members by name -/

namespace Named

theorem cons_iff {k : Key} : Named names ((k,t) :: ms) ↔ ∃ name rest, names = name :: rest ∧
    k = .text name ∧ name ∉ rest ∧ Named rest ms := by
  constructor
  · rintro ⟨hkeys,hnodup⟩
    cases names with
    | nil => simp at hkeys
    | cons name rest =>
      obtain ⟨hk,hrest⟩ := List.cons.inj hkeys
      obtain ⟨hname,hnodup⟩ := List.nodup_cons.mp hnodup
      exact ⟨name,rest,rfl,hk,hname,hrest,hnodup⟩
  · rintro ⟨name,rest,rfl,rfl,hname,hkeys,hnodup⟩
    exact ⟨congrArg (Key.text name :: ·) hkeys,List.nodup_cons.mpr ⟨hname,hnodup⟩⟩

theorem exists_text (h : Named names ms) {k : Key} (hm : (k,t) ∈ ms) :
    ∃ name ∈ names, k = .text name := by
  have hk : k ∈ names.map Key.text := h.keys ▸ List.mem_map_of_mem hm
  obtain ⟨name,hname,rfl⟩ := List.mem_map.mp hk
  exact ⟨name,hname,rfl⟩

theorem mem_of_member (h : Named names ms) {name : String} (hm : (.text name,t) ∈ ms) :
    name ∈ names := by
  obtain ⟨_,hname,he⟩ := h.exists_text hm
  rwa [Key.text.inj he]

theorem exists_member (h : Named names ms) {name : String} (hname : name ∈ names) :
    ∃ t, (.text name,t) ∈ ms := by
  have hk : Key.text name ∈ ms.map (·.1) := h.keys ▸ List.mem_map_of_mem hname
  obtain ⟨⟨_,t⟩,hm,rfl⟩ := List.mem_map.mp hk
  exact ⟨t,hm⟩

theorem eq_of_mem (h : Named names ms) {k : Key} (hm : (k,t) ∈ ms) (hm' : (k,t') ∈ ms) :
    t = t' := by
  have hnodup : (ms.map (·.1)).Nodup := by
    rw [h.keys]
    exact h.nodup.map fun _ _ => Key.text.inj
  exact congrArg Prod.snd (List.inj_on_of_nodup_map hnodup hm hm' rfl)

end Named

/-- The objects have the same names, and values under one name are related. -/
structure Matched (R : String → Tree → Tree → Prop) (ms ms' : List (Key × Tree)) : Prop where
  right : ∀ name t, (.text name,t) ∈ ms → ∃ t', (.text name,t') ∈ ms' ∧ R name t t'
  left : ∀ name t', (.text name,t') ∈ ms' → ∃ t, (.text name,t) ∈ ms ∧ R name t t'

theorem matched_of_perm {R : String → Tree → Tree → Prop} {names names' : List String}
    (h : Named names ms) (h' : Named names' ms') (hperm : names.Perm names')
    (hvalues : ∀ name t t', (.text name,t) ∈ ms → (.text name,t') ∈ ms' → R name t t') :
    Matched R ms ms' where
  right name t hm := by
    obtain ⟨t',hm'⟩ := h'.exists_member (hperm.subset (h.mem_of_member hm))
    exact ⟨t',hm',hvalues name t t' hm hm'⟩
  left name t' hm' := by
    obtain ⟨t,hm⟩ := h.exists_member (hperm.symm.subset (h'.mem_of_member hm'))
    exact ⟨t,hm,hvalues name t t' hm hm'⟩

/-- Each tree is related to one of the others. -/
structure Paired (R : Tree → Tree → Prop) (ts ts' : List Tree) : Prop where
  right : ∀ t ∈ ts, ∃ t' ∈ ts', R t t'
  left : ∀ t' ∈ ts', ∃ t ∈ ts, R t t'

theorem paired_of_items {R : Tree → Tree → Prop} {ts ts' : List Tree}
    (hlength : ts.length = ts'.length)
    (h : ∀ (i : Nat) t t', ts[i]? = some t → ts'[i]? = some t' → R t t') : Paired R ts ts' where
  right t ht := by
    obtain ⟨i,hi,rfl⟩ := List.mem_iff_getElem.mp ht
    have hi' : i < ts'.length := hlength ▸ hi
    exact ⟨ts'[i],List.getElem_mem hi',
      h i _ _ (List.getElem?_eq_getElem hi) (List.getElem?_eq_getElem hi')⟩
  left t' ht' := by
    obtain ⟨i,hi',rfl⟩ := List.mem_iff_getElem.mp ht'
    have hi : i < ts.length := hlength ▸ hi'
    exact ⟨ts[i],List.getElem_mem hi,
      h i _ _ (List.getElem?_eq_getElem hi) (List.getElem?_eq_getElem hi')⟩

theorem Matched.paired {R : Tree → Tree → Prop} {names names' : List String}
    (h : Named names ms) (h' : Named names' ms') (hmatched : Matched (fun _ => R) ms ms') :
    Paired R (ms.map (·.2)) (ms'.map (·.2)) where
  right t ht := by
    obtain ⟨⟨k,_⟩,hm,rfl⟩ := List.mem_map.mp ht
    obtain ⟨name,_,rfl⟩ := h.exists_text hm
    obtain ⟨t',hm',hr⟩ := hmatched.right name _ hm
    exact ⟨t',List.mem_map.mpr ⟨_,hm',rfl⟩,hr⟩
  left t' ht' := by
    obtain ⟨⟨k,_⟩,hm',rfl⟩ := List.mem_map.mp ht'
    obtain ⟨name,_,rfl⟩ := h'.exists_text hm'
    obtain ⟨t,hm,hr⟩ := hmatched.left name _ hm'
    exact ⟨t,List.mem_map.mpr ⟨_,hm,rfl⟩,hr⟩

/-- What holds of two nodes whenever it holds of their parts in pairs. -/
theorem reordered_rec {R : Tree → Tree → Prop}
    (leaf : ∀ t : Tree, t.isLeaf = true → R t t)
    (list : ∀ ts ts', Paired R ts ts' → R (list ts) (list ts'))
    (object : ∀ ms ms' names names', Named names ms → Named names' ms' →
      Paired R (ms.map (·.2)) (ms'.map (·.2)) → R (object ms) (object ms'))
    (h : Reordered L z t t') : R t t' := by
  induction h with
  | leaf h => exact leaf _ h
  | list hlength _ ih => exact list _ _ (paired_of_items hlength ih)
  | object hnamed hnamed' hperm _ _ ih =>
    exact object _ _ _ _ hnamed hnamed'
      (Matched.paired hnamed hnamed' (matched_of_perm hnamed hnamed' hperm ih))

theorem Reordered.empty : Reordered L z (Tree.object []) (Tree.object []) :=
  .object ⟨rfl,.nil⟩ ⟨rfl,.nil⟩ .nil (fun _ => rfl) nofun

/-- Two members in either order. -/
theorem Reordered.swap {name name' : String} {u u' : Tree} (hne : name ≠ name')
    (hz : ¬ L.ordered z) (ht : Reordered L (L.member z name) t t')
    (hu : Reordered L (L.member z name') u u') :
    Reordered L z (Tree.object [(.text name,t),(.text name',u)])
      (Tree.object [(.text name',u'),(.text name,t')]) := by
  have hnamed : Named [name,name'] [(.text name,t),(.text name',u)] := ⟨rfl,by simpa using hne⟩
  have hnamed' : Named [name',name] [(.text name',u'),(.text name,t')] :=
    ⟨rfl,by simpa using hne.symm⟩
  refine .object hnamed hnamed' (.swap name' name []) (fun h => absurd h hz) fun n v v' hv hv' => ?_
  simp only [List.mem_cons, Prod.mk.injEq, Key.text.injEq, List.not_mem_nil, or_false] at hv hv'
  rcases hv with ⟨rfl,rfl⟩ | ⟨rfl,rfl⟩ <;> rcases hv' with ⟨hn,rfl⟩ | ⟨hn,rfl⟩
  · exact absurd hn hne
  · exact ht
  · exact hu
  · exact absurd hn hne.symm

/-! ## Reading members and items -/

theorem mapM_congr {β : Type} {f : β → Option α} {bs bs' : List β}
    (hlength : bs.length = bs'.length)
    (h : ∀ (i : Nat) b b', bs[i]? = some b → bs'[i]? = some b' → f b = f b') :
    bs.mapM f = bs'.mapM f := by
  have hmap : bs.map f = bs'.map f := by
    refine List.ext_getElem (by simpa using hlength) fun i hi hi' => ?_
    rw [List.getElem_map, List.getElem_map]
    exact h i _ _ (List.getElem?_eq_getElem _) (List.getElem?_eq_getElem _)
  rw [← Function.id_comp f, ← List.mapM_map, hmap, List.mapM_map]

/-- The members with their values read. -/
def readMembers (read : Tree → Option α) (ms : List (Key × Tree)) : Option (List (String × α)) :=
  ms.mapM fun (k,t) => do return (← k.text?,← read t)

theorem readMembers_cons (read : Tree → Option α) (name : String) (t : Tree)
    (ms : List (Key × Tree)) : readMembers read ((.text name,t) :: ms) =
      (read t).bind fun v => (readMembers read ms).map ((name,v) :: ·) := by
  simp only [readMembers, List.mapM_cons, Key.text?, Option.pure_def, Option.bind_eq_bind,
    Option.bind_some]
  cases read t with
  | none => rfl
  | some v =>
    simp only [Option.bind_some, Option.map_eq_bind]
    rfl

theorem mem_readMembers {read : Tree → Option α} (h : Named names ms) {es : List (String × α)}
    (hes : readMembers read ms = some es) {name : String} {v : α} :
    (name,v) ∈ es ↔ ∃ t, (.text name,t) ∈ ms ∧ read t = some v := by
  induction ms generalizing names es with
  | nil =>
    cases hes
    simp
  | cons m ms ih =>
    obtain ⟨k,t⟩ := m
    obtain ⟨n,rest,rfl,rfl,_,hrest⟩ := Named.cons_iff.mp h
    rw [readMembers_cons] at hes
    obtain ⟨w,hw,hes⟩ := Option.bind_eq_some_iff.mp hes
    obtain ⟨later,hlater,rfl⟩ := Option.map_eq_some_iff.mp hes
    simp only [List.mem_cons, Prod.mk.injEq, Key.text.injEq, ih hrest hlater]
    constructor
    · rintro (⟨rfl,rfl⟩ | ⟨t',hm,hv⟩)
      · exact ⟨t,.inl ⟨rfl,rfl⟩,hw⟩
      · exact ⟨t',.inr hm,hv⟩
    · rintro ⟨t',⟨rfl,rfl⟩ | hm,hv⟩
      · exact .inl ⟨rfl,Option.some.inj (hv.symm.trans hw)⟩
      · exact .inr ⟨t',hm,hv⟩

theorem readMembers_eq_none {read : Tree → Option α} (h : Named names ms) :
    readMembers read ms = none ↔ ∃ name t, (.text name,t) ∈ ms ∧ read t = none := by
  induction ms generalizing names with
  | nil => simp [readMembers]
  | cons m ms ih =>
    obtain ⟨k,t⟩ := m
    obtain ⟨n,rest,rfl,rfl,_,hrest⟩ := Named.cons_iff.mp h
    rw [readMembers_cons]
    cases hv : read t with
    | none => exact iff_of_true rfl ⟨n,t,List.mem_cons_self,hv⟩
    | some v =>
      simp only [Option.bind_some, Option.map_eq_none_iff, ih hrest, List.mem_cons, Prod.mk.injEq]
      constructor
      · rintro ⟨name,t',hm,hnone⟩
        exact ⟨name,t',.inr hm,hnone⟩
      · rintro ⟨name,t',⟨_,rfl⟩ | hm,hnone⟩
        · cases hv.symm.trans hnone
        · exact ⟨name,t',hm,hnone⟩

theorem get?_table {read : Tree → Option α} (h : Named names ms) {es : List (String × α)}
    (hes : readMembers read ms = some es) {name : String} {v : α} :
    (Dict.ofList es).get? name = some v ↔ ∃ t, (.text name,t) ∈ ms ∧ read t = some v := by
  rw [← mem_readMembers h hes]
  refine ⟨Dict.mem_of_get?_ofList,fun hv => Dict.get?_ofList_of_mem hv fun w hw => ?_⟩
  obtain ⟨t,hm,hread⟩ := (mem_readMembers h hes).mp hv
  obtain ⟨t',hm',hread'⟩ := (mem_readMembers h hes).mp hw
  rw [h.eq_of_mem hm' hm, hread] at hread'
  exact (Option.some.inj hread').symm

/-- A table of the members is the same in whatever order they are read. -/
theorem table_eq {read : Tree → Option α} {names names' : List String} (h : Named names ms)
    (h' : Named names' ms') (hmatched : Matched (fun _ t t' => read t = read t') ms ms') :
    (readMembers read ms).map Dict.ofList = (readMembers read ms').map Dict.ofList := by
  have hnone : readMembers read ms = none ↔ readMembers read ms' = none := by
    rw [readMembers_eq_none h, readMembers_eq_none h']
    constructor
    · rintro ⟨name,t,hm,hv⟩
      obtain ⟨t',hm',he⟩ := hmatched.right name t hm
      exact ⟨name,t',hm',he ▸ hv⟩
    · rintro ⟨name,t',hm',hv⟩
      obtain ⟨t,hm,he⟩ := hmatched.left name t' hm'
      exact ⟨name,t,hm,he ▸ hv⟩
  -- The entries are the same but for their order, which lookups do not see: no name repeats.
  have hmem {es es' : List (String × α)} (hes : readMembers read ms = some es)
      (hes' : readMembers read ms' = some es') (name : String) (v : α) :
      (name,v) ∈ es ↔ (name,v) ∈ es' := by
    rw [mem_readMembers h hes, mem_readMembers h' hes']
    constructor
    · rintro ⟨t,hm,hv⟩
      obtain ⟨t',hm',he⟩ := hmatched.right name t hm
      exact ⟨t',hm',he ▸ hv⟩
    · rintro ⟨t',hm',hv⟩
      obtain ⟨t,hm,he⟩ := hmatched.left name t' hm'
      exact ⟨t,hm,he ▸ hv⟩
  cases hes : readMembers read ms with
  | none => rw [hnone.mp hes]
  | some es =>
    cases hes' : readMembers read ms' with
    | none => rw [hnone.mpr hes'] at hes; cases hes
    | some es' =>
      refine congrArg some (Dict.eq_of_get? fun name v => ?_)
      rw [get?_table h hes, get?_table h' hes', ← mem_readMembers h hes,
        ← mem_readMembers h' hes', hmem hes hes']

/-- Members under the same names in the same order are read to the same list. -/
theorem readMembers_congr {read : Tree → Option α} (h : Named names ms) (h' : Named names ms')
    (hvalues : ∀ name t t', (.text name,t) ∈ ms → (.text name,t') ∈ ms' → read t = read t') :
    readMembers read ms = readMembers read ms' := by
  have hkeys : ms.map (·.1) = ms'.map (·.1) := h.keys.trans h'.keys.symm
  refine mapM_congr (by simpa using congrArg List.length hkeys) ?_
  rintro i ⟨k,t⟩ ⟨k',t'⟩ hm hm'
  have hk : k = k' := by simpa [hm, hm'] using congrArg (·[i]?) hkeys
  subst hk
  obtain ⟨name,_,rfl⟩ := h.exists_text (List.mem_of_getElem? hm)
  have ht : read t = read t' :=
    hvalues name t t' (List.mem_of_getElem? hm) (List.mem_of_getElem? hm')
  simp only [ht]

/-! ## Values, resolution and height -/

theorem jsonItems_eq (ts : List Tree) : jsonItems ts = ts.mapM json? := by
  induction ts with
  | nil => rfl
  | cons t ts ih => rw [jsonItems, ih, List.mapM_cons]

theorem jsonMembers_eq (ms : List (Key × Tree)) : jsonMembers ms = readMembers json? ms := by
  induction ms with
  | nil => rfl
  | cons m ms ih =>
    rw [jsonMembers, ih, readMembers, readMembers, List.mapM_cons]
    simp only [Option.bind_eq_bind, Option.pure_def, Option.bind_assoc, Option.bind_some]

theorem json?_object (ms : List (Key × Tree)) : (object ms).json? =
    ((readMembers json? ms).map Dict.ofList).map fun d => .object d.entries := by
  rw [json?, jsonMembers_eq, Option.map_map]
  rfl

theorem Reordered.json?_eq (h : Reordered L z t t') : t.json? = t'.json? := by
  induction h with
  | leaf => rfl
  | list hlength _ ih => rw [json?, json?, jsonItems_eq, jsonItems_eq, mapM_congr hlength ih]
  | object hnamed hnamed' hperm _ _ ih =>
    rw [json?_object, json?_object,
      table_eq hnamed hnamed' (matched_of_perm hnamed hnamed' hperm ih)]

/-! Without scalars and bare words there is nothing to resolve. -/

theorem resolveItems_eq_some {ts : List Tree} (h : ∀ t ∈ ts, t.resolve? = some t) :
    resolveItems ts = some ts := by
  induction ts with
  | nil => rfl
  | cons t ts ih =>
    obtain ⟨ht,hts⟩ := List.forall_mem_cons.mp h
    rw [resolveItems, ht, ih hts]
    rfl

theorem resolveItems_eq_none {ts : List Tree} (ht : t ∈ ts) (h : t.resolve? = none) :
    resolveItems ts = none := by
  induction ts with
  | nil => simp at ht
  | cons t' ts ih =>
    rw [resolveItems]
    rcases List.mem_cons.mp ht with rfl | ht
    · rw [h]
      rfl
    · rw [ih ht]
      cases t'.resolve? <;> rfl

theorem resolveMembers_eq_some (hn : Named names ms)
    (h : ∀ t ∈ ms.map (·.2), t.resolve? = some t) : resolveMembers ms = some ms := by
  induction ms generalizing names with
  | nil => rfl
  | cons m ms ih =>
    obtain ⟨k,t⟩ := m
    obtain ⟨name,rest,rfl,rfl,_,hrest⟩ := Named.cons_iff.mp hn
    obtain ⟨ht,hms⟩ := List.forall_mem_cons.mp h
    rw [resolveMembers, ht, ih hrest hms]
    rfl

theorem resolveMembers_eq_none (ht : t ∈ ms.map (·.2)) (h : t.resolve? = none) :
    resolveMembers ms = none := by
  induction ms with
  | nil => simp at ht
  | cons m ms ih =>
    obtain ⟨k,t'⟩ := m
    rw [resolveMembers]
    rcases List.mem_cons.mp ht with rfl | ht
    · rw [h]
      rfl
    · rw [ih ht]
      cases t'.resolve? <;> rfl

/-- Either both trees have a broken part, or both are as a reader without expectations sees them. -/
def Resolution (t t' : Tree) : Prop :=
  t.resolve? = none ∧ t'.resolve? = none ∨ t.resolve? = some t ∧ t'.resolve? = some t'

theorem resolution_parts {ts ts' : List Tree} (h : Paired Resolution ts ts') :
    (∃ t ∈ ts, t.resolve? = none) ∧ (∃ t' ∈ ts', t'.resolve? = none) ∨
      (∀ t ∈ ts, t.resolve? = some t) ∧ ∀ t' ∈ ts', t'.resolve? = some t' := by
  by_cases hbroken : ∃ t ∈ ts, t.resolve? = none
  · refine .inl ⟨hbroken,?_⟩
    obtain ⟨t,ht,hnone⟩ := hbroken
    obtain ⟨t',ht',⟨_,hnone'⟩ | ⟨hsome,_⟩⟩ := h.right t ht
    · exact ⟨t',ht',hnone'⟩
    · cases hnone.symm.trans hsome
  · refine .inr ⟨fun t ht => ?_,fun t' ht' => ?_⟩
    · obtain ⟨_,_,⟨hnone,_⟩ | ⟨hsome,_⟩⟩ := h.right t ht
      · exact absurd ⟨t,ht,hnone⟩ hbroken
      · exact hsome
    · obtain ⟨t,ht,⟨hnone,_⟩ | ⟨_,hsome'⟩⟩ := h.left t' ht'
      · exact absurd ⟨t,ht,hnone⟩ hbroken
      · exact hsome'

theorem Reordered.resolution (h : Reordered L z t t') : Resolution t t' := by
  refine reordered_rec ?leaf ?list ?object h
  case leaf =>
    intro t h
    cases t <;> simp_all [isLeaf, Resolution, resolve?]
  case list =>
    intro ts ts' h
    rcases resolution_parts h with ⟨⟨t,ht,hnone⟩,t',ht',hnone'⟩ | ⟨hall,hall'⟩
    · exact .inl ⟨by rw [resolve?, resolveItems_eq_none ht hnone]; rfl,
        by rw [resolve?, resolveItems_eq_none ht' hnone']; rfl⟩
    · exact .inr ⟨by rw [resolve?, resolveItems_eq_some hall]; rfl,
        by rw [resolve?, resolveItems_eq_some hall']; rfl⟩
  case object =>
    intro ms ms' _ _ hnamed hnamed' h
    rcases resolution_parts h with ⟨⟨t,ht,hnone⟩,t',ht',hnone'⟩ | ⟨hall,hall'⟩
    · exact .inl ⟨by rw [resolve?, resolveMembers_eq_none ht hnone]; rfl,
        by rw [resolve?, resolveMembers_eq_none ht' hnone']; rfl⟩
    · exact .inr ⟨by rw [resolve?, resolveMembers_eq_some hnamed hall]; rfl,
        by rw [resolve?, resolveMembers_eq_some hnamed' hall']; rfl⟩

theorem itemsHeight_le_iff {ts : List Tree} {n : Nat} :
    itemsHeight ts ≤ n ↔ ∀ t ∈ ts, t.height ≤ n := by
  induction ts with
  | nil => simp [itemsHeight]
  | cons t ts ih => rw [itemsHeight, Nat.max_le, ih, List.forall_mem_cons]

theorem membersHeight_eq (ms : List (Key × Tree)) :
    membersHeight ms = itemsHeight (ms.map (·.2)) := by
  induction ms with
  | nil => rfl
  | cons m ms ih => rw [membersHeight, ih, List.map_cons, itemsHeight]

theorem itemsHeight_eq {ts ts' : List Tree}
    (h : Paired (fun t t' => t.height = t'.height) ts ts') : itemsHeight ts = itemsHeight ts' := by
  refine Nat.le_antisymm (itemsHeight_le_iff.mpr fun t ht => ?_)
    (itemsHeight_le_iff.mpr fun t' ht' => ?_)
  · obtain ⟨t',ht',he⟩ := h.right t ht
    exact he ▸ itemsHeight_le_iff.mp (Nat.le_refl _) t' ht'
  · obtain ⟨t,ht,he⟩ := h.left t' ht'
    exact he ▸ itemsHeight_le_iff.mp (Nat.le_refl _) t ht

theorem Reordered.height_eq (h : Reordered L z t t') : t.height = t'.height := by
  refine reordered_rec (R := fun t t' => t.height = t'.height) (fun _ _ => rfl) ?list ?object h
  case list =>
    intro ts ts' h
    rw [height, height, itemsHeight_eq h]
  case object =>
    intro ms ms' _ _ _ _ h
    rw [height, height, membersHeight_eq, membersHeight_eq, itemsHeight_eq h]

end Tree
end ClientGen
