import ClientGen.Proofs.Calls.QueryRuns
import ClientGen.Proofs.Passes

/-! # Query strings

The options of a package and the functions on them denote its query. Each parameter that an
operation takes has one field, one setter for that field and, when it is set, one pair in the query
string, under exactly its name.
-/
namespace ClientGen
namespace Sdk.QueryOptions
open Code (Value Runtime)
variable {package : String} {ops : List Operation} {paths : ModulePaths}

/-- A setter takes a value that its option can have, sets the option to it and leaves the others. -/
structure SetsOption (os : List QueryOption) (o : QueryOption) (f : Code.Function) : Prop where
  receiver : f.receiver = some .mutable
  types : f.params.map (·.type) =
    [if o.scalar = .text then .into (.path "String") else ownedType o.scalar]
  set : ∀ {α : Type} (rt : Runtime α) (given : String → Option (Value α)) {v : Value α},
    Fits o.scalar v → f.call? rt (struct os given) [v] =
      some (.record (struct os (Function.update given o.name (some v))))

/-- What the operations of a package take is what its options hold, set and send. -/
structure Denotes (paths : ModulePaths) (ops : List Operation) (os : List QueryOption)
    (fields : List Code.Field) (setters : List Code.Function) (build : Code.Function) : Prop where
  increasing : os.Pairwise fun a b => a.param.name < b.param.name
  declared : ∀ o ∈ os, ∃ op ∈ ops, o.param ∈ op.queryParams
  unique : ∀ op ∈ ops, ∀ q ∈ op.queryParams, ∃! o, o ∈ os ∧ o.param.name = q.name
  /-- A type other than text is the one that all declarations have. -/
  scalar : ∀ o ∈ os, ∀ s ≠ Scalar.text, (o.scalar = s ↔
    ∀ op ∈ ops, ∀ q ∈ op.queryParams, q.name = o.param.name → q.type.scalar = s)
  apart : Ident.Apart (os.map (·.name))
  fields : fields.map (fun f => (f.name,f.type)) =
    os.map fun o => (o.name,.option (ownedType o.scalar))
  setters : List.Forall₂ (SetsOption os) os setters
  build : ∀ {α : Type} (rt : Runtime α) (given : String → Option (Value α)),
    rt.encoder = paths.runtime "encode_query" →
      (∀ o ∈ os, ∀ v, given o.name = some v → Fits o.scalar v) →
        build.call? rt (struct os given) [] = some (.text (queryString rt given os))

/-- A module with the struct of the options, a function that makes one, the setters and the builder
of the query string. -/
def ModuleDenotes (paths : ModulePaths) (ops : List Operation) (m : Code.Module) : Prop :=
  ∃ s i os fields new setters build, m.items = [.struct s,.impl i] ∧
    s.name = "Options" ∧ s.body = .fields fields ∧
    i.trait = none ∧ i.target = .path "Options" ∧
    i.members = (new :: setters ++ [build]).map .function ∧
    Ident.Apart (i.members.map Code.Member.name) ∧
    new.receiver = none ∧ build.name = "build_query_string" ∧
    Denotes paths ops os fields setters build

theorem exists_of_mem_named {params : List Merged} {o : QueryOption} (h : o ∈ named params) :
    ∃ m ∈ params, o.param = m.param ∧ o.scalar = m.scalar := by
  rw [named, ← List.map_uncurry_zip_eq_zipWith] at h
  obtain ⟨⟨name,m⟩,hm,rfl⟩ := List.mem_map.mp h
  exact ⟨m,(List.of_mem_zip hm).2,rfl,rfl⟩

theorem map_paramName_named (params : List Merged) :
    (named params).map (·.param.name) = params.map (·.param.name) := by
  have hparams := congrArg (List.map (·.name)) (map_param_named params)
  rwa [List.map_map, List.map_map] at hparams

theorem increasing_named (package : String) (ops : List Operation) :
    (named (merge package ops).value).Pairwise fun a b => a.param.name < b.param.name := by
  apply List.pairwise_map.mp
  rw [map_paramName_named]
  exact List.pairwise_map.mpr (increasing_merge package ops)

theorem exists_declared_of_mem_named {o : QueryOption}
    (h : o ∈ named (merge package ops).value) :
    ∃ m, declared (ops.flatMap (·.queryParams)) o.param.name = some m ∧
      o.param = m.param ∧ o.scalar = m.scalar := by
  obtain ⟨m,hm,hparam,hscalar⟩ := exists_of_mem_named h
  obtain ⟨name,hname⟩ := mem_merge.mp hm
  obtain rfl := (of_declared hname).2
  exact ⟨m,hparam ▸ hname,hparam,hscalar⟩

theorem existsUnique_named {op : Operation} (hop : op ∈ ops) {q : QueryParam}
    (hq : q ∈ op.queryParams) :
    ∃! o, o ∈ named (merge package ops).value ∧ o.param.name = q.name := by
  have hname : q.name ∈ (named (merge package ops).value).map (·.param.name) := by
    rw [map_paramName_named]
    exact mem_names_merge.mpr ⟨op,hop,q,hq,rfl⟩
  have hnodup : ((named (merge package ops).value).map (·.param.name)).Nodup :=
    List.pairwise_map.mpr ((increasing_named package ops).imp ne_of_lt)
  obtain ⟨o,ho,hoq⟩ := List.mem_map.mp hname
  refine ⟨o,⟨ho,hoq⟩,?_⟩
  rintro p ⟨hp,hpq⟩
  exact List.inj_on_of_nodup_map hnodup hp ho (hpq.trans hoq.symm)

theorem scalar_named {o : QueryOption} (h : o ∈ named (merge package ops).value) {s : Scalar}
    (hs : s ≠ .text) : o.scalar = s ↔
      ∀ op ∈ ops, ∀ q ∈ op.queryParams, q.name = o.param.name → q.type.scalar = s := by
  obtain ⟨m,hm,_,hscalar⟩ := exists_declared_of_mem_named h
  obtain ⟨hall,hcommon⟩ := scalar_of_declared hm
  rw [hscalar]
  constructor
  · rintro rfl op hop q hq hname
    exact (hall.resolve_left hs) q (List.mem_flatMap.mpr ⟨op,hop,hq⟩) hname
  · intro hops
    apply hcommon
    intro q hq hname
    obtain ⟨op,hop,hq⟩ := List.mem_flatMap.mp hq
    exact hops op hop q hq hname

theorem setsOption_setter {os : List QueryOption} (hnames : (os.map (·.name)).Nodup)
    {o : QueryOption} (ho : o ∈ os) : SetsOption os o (setter o) where
  receiver := by unfold setter; cases o.scalar <;> rfl
  types := by unfold setter; cases o.scalar <;> rfl
  set _ given _ hfits := call?_setter hnames ho given hfits

theorem denotes_named (paths : ModulePaths) (package : String) (ops : List Operation) :
    let os := named (merge package ops).value
    Denotes paths ops os (os.map field) (os.map setter) (buildQuery paths os) where
  increasing := increasing_named package ops
  declared o ho := by
    obtain ⟨m,hm,hparam,_⟩ := exists_declared_of_mem_named ho
    obtain ⟨op,hop,hq⟩ := List.mem_flatMap.mp (of_declared hm).1
    exact ⟨op,hop,hparam ▸ hq⟩
  unique _ hop _ hq := existsUnique_named hop hq
  scalar _ ho _ hs := scalar_named ho hs
  apart := apart_names _
  fields := by rw [List.map_map]; rfl
  setters := by
    have hnames := List.Nodup.of_map _ (apart_names (merge package ops).value)
    exact List.forall₂_map_right_iff.mpr
      (List.forall₂_same.mpr fun o ho => setsOption_setter hnames ho)
  build _ _ h hfits := call?_buildQuery h hfits

theorem moduleDenotes_moduleOf (paths : ModulePaths) (package : String) (ops : List Operation) :
    ModuleDenotes paths ops (moduleOf paths package ops).value := by
  let os := named (merge package ops).value
  have hmembers : Code.Item.ScopesApart (fun _ _ => True) _ :=
    apart_moduleOf paths package ops (List.mem_cons_of_mem _ (List.mem_singleton_self _))
  exact ⟨_,_,os,os.map field,new,os.map setter,buildQuery paths os,rfl,rfl,rfl,rfl,rfl,rfl,
    hmembers.1,rfl,rfl,denotes_named paths package ops⟩

end Sdk.QueryOptions

namespace Generator
open Sdk Sdk.QueryOptions

/-- The options of every package denote the query that its operations take. -/
theorem query_strings_denoted (g : Generator) : ∀ package ∈ g.api.value.packages,
    ∃ f ∈ (g.files .services).value, f.path = Calls.packagePath package "options.rs" ∧
      ModuleDenotes g.paths (g.api.value.operationsOf package) f.module := by
  intro package hpackage
  have hfile : Calls.optionsFile g.api.value g.paths package ∈
      (Calls.files g.models.value g.api.value g.paths).value :=
    Calls.mem_files.mpr (.inr (.inl ⟨package,hpackage,.inl rfl⟩))
  rw [value_files_services]
  refine ⟨_,hfile,?_,moduleDenotes_moduleOf g.paths package _⟩
  rw [Calls.optionsFile]

/-- Two operations that disagree about one of their parameters, under names full of escapes. -/
def library : Generator where
  document :=
    { paths := .ofList [
        ("/books",shelf "listBooks" [.here ⟨"by \"name\"","query",false,none,none⟩,
          .here ⟨"page","query",true,none,number⟩,
          .here ⟨"\x7bsize\x7d","query",false,none,number⟩]),
        ("/books/lent",shelf "listLent" [.here ⟨"page","query",false,none,none⟩,
          .here ⟨"by\\name","query",false,none,none⟩])]
      components := none }
  config := defaultConfig
  paths := .default
where
  number : Option Schema := Schema.ofJson? (.object [("type",.text "integer")])
  shelf (id : String) (params : List (OrRef Parameter)) : PathItem :=
    ⟨some ⟨some id,none,none,["book"],none,params,none,.empty⟩,none,none,none,none,[]⟩

theorem query_strings_denoted_library : (library.api.value.operationsOf "book").map
      (fun op => op.queryParams.map fun q => (q.name,q.type.scalar)) =
        [[("by \"name\"",.text),("page",.int64),("\x7bsize\x7d",.int64)],
          [("by\\name",.text),("page",.text)]] ∧
    ∃ f ∈ (library.files .services).value, f.path = Calls.packagePath "book" "options.rs" ∧
      ModuleDenotes library.paths (library.api.value.operationsOf "book") f.module := by
  have hpackages : library.api.value.packages = ["book"] := by decide +kernel
  exact ⟨by decide +kernel,
    query_strings_denoted library "book" (hpackages ▸ List.mem_singleton_self _)⟩

end Generator
end ClientGen
