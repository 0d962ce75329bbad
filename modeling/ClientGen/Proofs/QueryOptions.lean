import ClientGen.Proofs.Data.Dict
import ClientGen.Proofs.Ident.Reserve
import ClientGen.Proofs.Logged
import ClientGen.Sdk.QueryOptions

/-! # Merged query parameters

A package takes each query parameter that some operation of it takes, as first declared. Its type is
the one that all declarations have, or text.
-/
namespace ClientGen.Sdk.QueryOptions
variable {package : String}

/-- A parameter after one more declaration of it. -/
def joined (q : QueryParam) : Option Merged → Merged
  | none => ⟨q,q.type.scalar⟩
  | some known => if known.scalar = q.type.scalar then known else { known with scalar := .text }

/-- What all declarations of one name come to. -/
def declared (qs : List QueryParam) (name : String) : Option Merged :=
  match qs.filter (·.name == name) with
  | [] => none
  | q :: rest =>
    some ⟨q,if rest.all (·.type.scalar == q.type.scalar) then q.type.scalar else .text⟩

theorem get?_addParam (d : Dict Merged) (q : QueryParam) (name : String) :
    (addParam package d q).value.get? name =
      if name = q.name then some (joined q (d.get? name)) else d.get? name := by
  unfold addParam
  by_cases hname : name = q.name
  · rw [if_pos hname, hname]
    cases hd : d.get? q.name with
    | none => rw [Logged.value_pure, Dict.get?_insert, if_pos rfl, joined]
    | some known =>
      rw [joined]
      by_cases hs : known.scalar = q.type.scalar
      · simp only [if_pos hs, Logged.value_pure, hd]
      · simp only [if_neg hs, Logged.value_bind, Logged.value_pure, Dict.get?_insert, if_true]
  · rw [if_neg hname]
    split
    · rw [Logged.value_pure, Dict.get?_insert, if_neg hname]
    · split
      · rfl
      · rw [Logged.value_bind, Logged.value_pure, Dict.get?_insert, if_neg hname]

theorem declared_concat (qs : List QueryParam) (q : QueryParam) (name : String) :
    declared (qs ++ [q]) name =
      if name = q.name then some (joined q (declared qs name)) else declared qs name := by
  unfold declared
  rw [List.filter_append]
  by_cases hname : name = q.name
  · have hself : [q].filter (·.name == name) = [q] := by simp [hname]
    rw [hself, if_pos hname]
    cases qs.filter (·.name == name) with
    | nil => rfl
    | cons first rest =>
      simp only [List.cons_append, List.all_append, List.all_cons, List.all_nil, Bool.and_true,
        Bool.and_eq_true, beq_iff_eq, joined, Option.some.injEq]
      -- once the declarations differ they stay text, whatever comes
      by_cases hrest : rest.all (·.type.scalar == first.type.scalar) = true
      · by_cases hq : first.type.scalar = q.type.scalar
        · rw [hq] at hrest
          simp [hq, hrest]
        · simp [hrest, hq, Ne.symm hq]
      · simp [hrest]
  · have hother : [q].filter (·.name == name) = [] := by simp [Ne.symm hname]
    rw [hother, List.append_nil, if_neg hname]

theorem get?_foldl_addParam (qs : List QueryParam) (name : String) :
    (qs.foldl (fun d q => (addParam package d q).value) .empty).get? name = declared qs name := by
  induction qs using List.reverseRecOn with
  | nil => rfl
  | append_singleton qs q ih =>
    rw [List.foldl_append, List.foldl_cons, List.foldl_nil, get?_addParam, ih, declared_concat]

/-- The merged parameters are what the declarations of each name come to. -/
theorem mem_merge {ops : List Operation} {m : Merged} : m ∈ (merge package ops).value ↔
    ∃ name, declared (ops.flatMap (·.queryParams)) name = some m := by
  rw [merge, Logged.value_bind, Logged.value_pure, Logged.value_foldlM, Dict.mem_values_iff]
  exact exists_congr fun name => by rw [get?_foldl_addParam]

theorem of_declared {qs : List QueryParam} {name : String} {m : Merged}
    (h : declared qs name = some m) : m.param ∈ qs ∧ m.param.name = name := by
  unfold declared at h
  cases hfilter : qs.filter (·.name == name) with
  | nil =>
    rw [hfilter] at h
    cases h
  | cons q rest =>
    rw [hfilter] at h
    cases h
    have hmem : q ∈ qs.filter (·.name == name) := by simp [hfilter]
    simpa using List.mem_filter.mp hmem

theorem exists_declared {qs : List QueryParam} {q : QueryParam} (h : q ∈ qs) :
    ∃ m, declared qs q.name = some m := by
  unfold declared
  cases hfilter : qs.filter (·.name == q.name) with
  | nil =>
    have hmem : q ∈ qs.filter (·.name == q.name) := List.mem_filter.mpr ⟨h,beq_self_eq_true _⟩
    simp [hfilter] at hmem
  | cons first rest => exact ⟨_,rfl⟩

/-- The scalar of a parameter is the one that all its declarations have. If they differ it is text,
as what text encodes to holds any of them. -/
theorem scalar_of_declared {qs : List QueryParam} {name : String} {m : Merged}
    (h : declared qs name = some m) :
    (m.scalar = .text ∨ ∀ q ∈ qs, q.name = name → q.type.scalar = m.scalar) ∧
      ∀ s, (∀ q ∈ qs, q.name = name → q.type.scalar = s) → m.scalar = s := by
  unfold declared at h
  cases hfilter : qs.filter (·.name == name) with
  | nil =>
    rw [hfilter] at h
    cases h
  | cons first rest =>
    have hmem (q : QueryParam) : q ∈ first :: rest ↔ q ∈ qs ∧ q.name = name := by
      rw [← hfilter, List.mem_filter, beq_iff_eq]
    rw [hfilter] at h
    obtain rfl := Option.some.inj h
    constructor
    · by_cases hall : rest.all (·.type.scalar == first.type.scalar) = true
      · refine .inr fun q hq hname => ?_
        rw [if_pos hall]
        rcases List.mem_cons.mp ((hmem q).mpr ⟨hq,hname⟩) with rfl | hrest
        · rfl
        · exact beq_iff_eq.mp (List.all_eq_true.mp hall q hrest)
      · exact .inl (if_neg hall)
    · intro s hs
      have hfirst := hs first ((hmem first).mp List.mem_cons_self).1
        ((hmem first).mp List.mem_cons_self).2
      have hall : rest.all (·.type.scalar == first.type.scalar) = true := by
        refine List.all_eq_true.mpr fun q hq => beq_iff_eq.mpr ?_
        obtain ⟨hqs,hname⟩ := (hmem q).mp (List.mem_cons_of_mem _ hq)
        rw [hs q hqs hname, hfirst]
      rw [if_pos hall]
      exact hfirst

/-- The names of merged parameters increase. -/
theorem increasing_merge (package : String) (ops : List Operation) :
    (merge package ops).value.Pairwise fun a b => a.param.name < b.param.name := by
  have hnames : (merge package ops).value.map (·.param.name) = _ :=
    Dict.map_values_eq_keys fun name m hm => by
      rw [Logged.value_foldlM, get?_foldl_addParam] at hm
      exact (of_declared hm).2
  apply List.pairwise_map.mp
  rw [hnames]
  exact Dict.keys_increasing _

/-- A package has an option for the names that its operations take, and for no others. -/
theorem mem_names_merge {ops : List Operation} {name : String} :
    name ∈ (merge package ops).value.map (·.param.name) ↔
      ∃ op ∈ ops, ∃ q ∈ op.queryParams, q.name = name := by
  constructor
  · intro h
    obtain ⟨m,hm,rfl⟩ := List.mem_map.mp h
    obtain ⟨_,hdeclared⟩ := mem_merge.mp hm
    obtain ⟨op,hop,hq⟩ := List.mem_flatMap.mp (of_declared hdeclared).1
    exact ⟨op,hop,_,hq,rfl⟩
  · rintro ⟨op,hop,q,hq,rfl⟩
    obtain ⟨m,hm⟩ := exists_declared (List.mem_flatMap.mpr ⟨op,hop,hq⟩)
    exact List.mem_map.mpr ⟨m,mem_merge.mpr ⟨_,hm⟩,(of_declared hm).2⟩

theorem map_param_named (params : List Merged) :
    (named params).map (·.param) = params.map (·.param) := by
  have hlength : params.length ≤ (Ident.reserveAll Ident.reserve []
      (params.map fun m => Ident.bindingName m.param.name)).length := by simp
  calc (named params).map (·.param)
      = (((Ident.reserveAll Ident.reserve []
          (params.map fun m => Ident.bindingName m.param.name)).zip params).map Prod.snd).map
          (·.param) := by
        rw [named, ← List.map_uncurry_zip_eq_zipWith, List.map_map, List.map_map]
        rfl
    _ = params.map (·.param) := by rw [List.map_snd_zip hlength]

/-! ## Merging as a whole -/

/-- The type that all declarations of a name have, or text if two of them differ. -/
def FitsAll (qs : List QueryParam) (name : String) (s : Scalar) : Prop :=
  (∀ q ∈ qs, q.name = name → q.type.scalar = s) ∨
    s = .text ∧ ∃ q ∈ qs, ∃ r ∈ qs, q.name = name ∧ r.name = name ∧ q.type.scalar ≠ r.type.scalar

section
variable {qs rs : List QueryParam} {name : String} {s s' : Scalar}

theorem FitsAll.unique (hname : ∃ q ∈ qs, q.name = name) (h : FitsAll qs name s)
    (h' : FitsAll qs name s') : s = s' := by
  obtain ⟨q,hq,hqname⟩ := hname
  rcases h with h | ⟨rfl,a,ha,b,hb,haname,hbname,hne⟩
  · rcases h' with h' | ⟨_,a,ha,b,hb,haname,hbname,hne⟩
    · rw [← h q hq hqname, h' q hq hqname]
    · exact absurd ((h a ha haname).trans (h b hb hbname).symm) hne
  · rcases h' with h' | ⟨rfl,_⟩
    · exact absurd ((h' a ha haname).trans (h' b hb hbname).symm) hne
    · rfl

/-- Each name that is declared, in the order of names, as first declared and with the type that fits
all its declarations. -/
structure Merges (qs : List QueryParam) (merged : List Merged) : Prop where
  increasing : merged.Pairwise fun a b => a.param.name < b.param.name
  names (name : String) : name ∈ merged.map (·.param.name) ↔ ∃ q ∈ qs, q.name = name
  first (m : Merged) (hm : m ∈ merged) : qs.find? (·.name == m.param.name) = some m.param
  scalar (m : Merged) (hm : m ∈ merged) : FitsAll qs m.param.name m.scalar

theorem find?_of_declared {m : Merged} (h : declared qs name = some m) :
    qs.find? (·.name == name) = some m.param := by
  unfold declared at h
  rw [← List.head?_filter]
  cases hfilter : qs.filter (·.name == name) with
  | nil =>
    rw [hfilter] at h
    cases h
  | cons q rest =>
    rw [hfilter] at h
    cases h
    rfl

theorem fitsAll_of_declared {m : Merged} (h : declared qs name = some m) :
    FitsAll qs name m.scalar := by
  obtain ⟨hparam,hname⟩ := of_declared h
  obtain ⟨hsame,hcommon⟩ := scalar_of_declared h
  by_cases hagree : ∀ q ∈ qs, q.name = name → q.type.scalar = m.param.type.scalar
  · left
    rw [hcommon _ hagree]
    exact hagree
  · obtain ⟨r,hr,hrname,hne⟩ : ∃ r ∈ qs, r.name = name ∧
        r.type.scalar ≠ m.param.type.scalar := by simpa using hagree
    refine .inr ⟨hsame.resolve_right fun hall => hne ?_,r,hr,m.param,hparam,hrname,hname,hne⟩
    exact (hall r hr hrname).trans (hall _ hparam hname).symm

end

theorem merges_merge (package : String) (ops : List Operation) :
    Merges (ops.flatMap (·.queryParams)) (merge package ops).value where
  increasing := increasing_merge package ops
  names name := by
    rw [mem_names_merge]
    constructor
    · rintro ⟨op,hop,q,hq,hname⟩
      exact ⟨q,List.mem_flatMap.mpr ⟨op,hop,hq⟩,hname⟩
    · rintro ⟨q,hq,hname⟩
      obtain ⟨op,hop,hq⟩ := List.mem_flatMap.mp hq
      exact ⟨op,hop,q,hq,hname⟩
  first m hm := by
    obtain ⟨name,hname⟩ := mem_merge.mp hm
    obtain rfl := (of_declared hname).2
    exact find?_of_declared hname
  scalar m hm := by
    obtain ⟨name,hname⟩ := mem_merge.mp hm
    obtain rfl := (of_declared hname).2
    exact fitsAll_of_declared hname

/-- The name and the type of each merged parameter. -/
def types (merged : List Merged) : List (String × Scalar) :=
  merged.map fun m => (m.param.name,m.scalar)

namespace Merges
variable {qs rs : List QueryParam} {merged merged' : List Merged}

theorem mem_types (h : Merges qs merged) {t : String × Scalar} :
    t ∈ types merged ↔ (∃ q ∈ qs, q.name = t.1) ∧ FitsAll qs t.1 t.2 := by
  constructor
  · intro ht
    obtain ⟨m,hm,rfl⟩ := List.mem_map.mp ht
    exact ⟨(h.names _).mp (List.mem_map_of_mem hm),h.scalar m hm⟩
  · rintro ⟨hname,hfits⟩
    obtain ⟨m,hm,hmname⟩ := List.mem_map.mp ((h.names _).mpr hname)
    have hscalar := (hmname ▸ h.scalar m hm).unique hname hfits
    exact List.mem_map.mpr ⟨m,hm,Prod.ext hmname hscalar⟩

/-- Names and types of merged parameters depend on the declarations alone, not on their order. -/
theorem types_eq (h : Merges qs merged) (h' : Merges rs merged') (hperm : qs.Perm rs) :
    types merged = types merged' := by
  have hincreasing {qs : List QueryParam} {ms : List Merged} (hms : Merges qs ms) :
      (types ms).Pairwise fun a b => a.1 < b.1 := List.pairwise_map.mpr hms.increasing
  have hmem (t : String × Scalar) : t ∈ types merged ↔ t ∈ types merged' := by
    rw [h.mem_types, h'.mem_types]
    simp only [FitsAll, hperm.mem_iff]
  exact Dict.entries_eq (hincreasing h) (hincreasing h') hmem

end Merges

/-- The query parameters of a package are what its operations declare, each name once, as first
declared and with the type of all its declarations or text. Operations in another order change no
name and no type. -/
theorem query_parameters_merged (package : String) (ops : List Operation) :
    Merges (ops.flatMap (·.queryParams)) (merge package ops).value ∧
      ∀ others : List Operation, others.Perm ops →
        types (merge package others).value = types (merge package ops).value := by
  refine ⟨merges_merge package ops,fun others hperm => ?_⟩
  have hdeclared : (others.flatMap (·.queryParams)).Perm (ops.flatMap (·.queryParams)) :=
    hperm.flatMap_right _
  exact (merges_merge package others).types_eq (merges_merge package ops) hdeclared

/-- An operation with these query parameters. -/
def taking (id : String) (params : List QueryParam) : Operation where
  id
  method := .get
  path := "/"
  pathParams := []
  queryParams := params
  body := none
  response := .empty
  owner := ⟨"shop","shop",.tag⟩
  function := Ident.bindingName id
  summary := none
  description := none

/-- The type of one name changes and changes back. -/
def shop : List Operation :=
  [taking "listItems" [⟨"page",.int32,false,some "of the list"⟩,⟨"from",.named "Day",true,none⟩],
    taking "listOrders" [⟨"page",.bool,false,some "or all"⟩],
    taking "listBills" [⟨"limit",.int64,true,none⟩,⟨"page",.int32,true,none⟩]]

theorem query_parameters_merged_shop : shop.reverse.Perm shop ∧
    types (merge "shop" shop).value = [("from",.text),("limit",.int64),("page",.text)] ∧
    (merge "shop" shop).value.map (·.param.description) = [none,none,some "of the list"] ∧
    (merge "shop" shop.reverse).value.map (·.param.description) = [none,none,none] ∧
    types (merge "shop" shop.reverse).value = types (merge "shop" shop).value := by
  have hperm : shop.reverse.Perm shop := List.reverse_perm shop
  refine ⟨hperm,by decide +kernel,by decide +kernel,by decide +kernel,?_⟩
  exact (query_parameters_merged "shop" shop).2 _ hperm

end ClientGen.Sdk.QueryOptions
