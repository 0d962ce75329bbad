import ClientGen.Proofs.Extract.Walk

/-! # Parameters by their declarations

The parameters of an operation are declared for its path and for itself. Of several declarations of
one name at one location the last counts, the operation's own coming after those of the path, and a
declaration at another location counts for nothing.
-/
namespace ClientGen

/-- The type of a parameter. Without a schema, or with one that has no type, it is text. -/
def Parameter.type (keep : List String) (p : Parameter) : TypeRef :=
  (p.schema.bind fun schema => (Classify.typeRef keep schema).toOption).getD .text

/-- The declarations for an endpoint that can be found: those of its path, then its own. -/
def Document.DeclaresParameters (d : Document) (r : Route) (ps : List Parameter) : Prop :=
  ∃ item e, d.paths.get? r.1 = some item ∧ Extract.endpoint? item r.2 = some e ∧
    ps = (item.parameters ++ e.parameters).filterMap d.parameter?

theorem Document.DeclaresParameters.unique {d : Document} {r : Route} {ps ps' : List Parameter}
    (h : d.DeclaresParameters r ps) (h' : d.DeclaresParameters r ps') : ps = ps' := by
  obtain ⟨item,e,hitem,he,rfl⟩ := h
  obtain ⟨item',e',hitem',he',rfl⟩ := h'
  cases hitem.symm.trans hitem'
  cases he.symm.trans he'
  rfl

namespace Extract
variable {keep : List String}

/-! ## The last declaration -/

def declaredAt (location : String) (ps : List Parameter) : List Parameter :=
  ps.filter (·.location == location)

/-- The declarations of one name at one location. -/
def declarationsOf (location name : String) (ps : List Parameter) : List Parameter :=
  (declaredAt location ps).filter (·.name == name)

def lastDeclared? (location name : String) (ps : List Parameter) : Option Parameter :=
  (declarationsOf location name ps).getLast?

section
variable {location name : String} {ps : List Parameter} {p : Parameter}

theorem declarationsOf_cons : declarationsOf location name (p :: ps) =
    if p.location = location ∧ p.name = name then p :: declarationsOf location name ps
    else declarationsOf location name ps := by
  unfold declarationsOf declaredAt
  by_cases hl : p.location = location
  · by_cases hn : p.name = name
    · simp [hl, hn]
    · simp [hl, hn]
  · simp [hl]

theorem lastDeclared?_concat : lastDeclared? location name (ps ++ [p]) =
    if p.location = location ∧ p.name = name then some p else lastDeclared? location name ps := by
  have hsplit : declarationsOf location name (ps ++ [p]) =
      declarationsOf location name ps ++ declarationsOf location name [p] := by
    simp [declarationsOf, declaredAt]
  rw [lastDeclared?, hsplit, declarationsOf_cons, List.getLast?_append]
  split
  · rfl
  · rfl

theorem of_lastDeclared? (h : lastDeclared? location name ps = some p) :
    p ∈ ps ∧ p.location = location ∧ p.name = name := by
  have hmem := List.mem_of_getLast? h
  simp only [declarationsOf, declaredAt, List.mem_filter, beq_iff_eq] at hmem
  exact ⟨hmem.1.1,hmem.1.2,hmem.2⟩

theorem exists_lastDeclared? (hp : p ∈ ps) :
    ∃ q, lastDeclared? p.location p.name ps = some q := by
  have hmem : p ∈ declarationsOf p.location p.name ps := by
    simp [declarationsOf, declaredAt, hp]
  cases hlast : lastDeclared? p.location p.name ps with
  | none =>
    rw [List.getLast?_eq_none_iff.mp hlast] at hmem
    cases hmem
  | some q => exact ⟨q,rfl⟩

end

/-! ## The overlay -/

/-- No place is declared twice. -/
def OneEach (ps : List Parameter) : Prop :=
  ∀ location name, (declarationsOf location name ps).length ≤ 1

theorem declarationsOf_overlay {ps : List Parameter} (h : OneEach ps) (p : Parameter)
    (location name : String) : declarationsOf location name (overlay p ps) =
      if p.location = location ∧ p.name = name then [p]
      else declarationsOf location name ps := by
  induction ps with
  | nil => exact declarationsOf_cons
  | cons q rest ih =>
    have hplace := h location name
    have hrest : OneEach rest := by
      intro l n
      have hle := h l n
      rw [declarationsOf_cons] at hle
      split at hle
      · exact Nat.le_of_succ_le hle
      · exact hle
    rw [declarationsOf_cons] at hplace
    unfold overlay
    split
    · -- the earlier declaration was the only one, so none is left behind the new one
      rename_i hsame
      obtain ⟨hname,hlocation⟩ := hsame
      rw [declarationsOf_cons, declarationsOf_cons, hname, hlocation]
      split
      · rename_i hp
        rw [hname, hlocation, if_pos hp, List.length_cons] at hplace
        have hnone : declarationsOf location name rest = [] :=
          List.length_eq_zero_iff.mp (Nat.le_zero.mp (Nat.le_of_succ_le_succ hplace))
        rw [hnone]
      · rfl
    · rename_i hother
      rw [declarationsOf_cons, declarationsOf_cons, ih hrest]
      by_cases hp : p.location = location ∧ p.name = name
      · have hq : ¬ (q.location = location ∧ q.name = name) := by
          rintro ⟨hl,hn⟩
          exact hother ⟨hn.trans hp.2.symm,hl.trans hp.1.symm⟩
        rw [if_neg hq, if_pos hp, if_pos hp]
      · rw [if_neg hp, if_neg hp]

/-- Overlaying declarations one by one keeps the last of each place. -/
theorem declarationsOf_overlaid (ps : List Parameter) (location name : String) :
    declarationsOf location name (ps.foldl (fun merged p => overlay p merged) []) =
      (lastDeclared? location name ps).toList := by
  induction ps using List.reverseRecOn generalizing location name with
  | nil => rfl
  | append_singleton ps p ih =>
    have hone : OneEach (ps.foldl (fun merged p => overlay p merged) []) := by
      intro l n
      rw [ih]
      cases lastDeclared? l n ps with
      | none => exact Nat.zero_le _
      | some q => exact Nat.le_refl _
    rw [List.foldl_append, List.foldl_cons, List.foldl_nil, declarationsOf_overlay hone, ih,
      lastDeclared?_concat]
    split
    · rfl
    · rfl

theorem value_parameters (s : Source) (item : PathItem) (e : Endpoint) :
    (parameters s item e).value = ((item.parameters ++ e.parameters).filterMap
      s.document.parameter?).foldl (fun merged p => overlay p merged) [] := by
  rw [parameters, Logged.value_foldlM, List.foldl_filterMap]
  congr 1
  funext merged p
  cases s.document.parameter? p with
  | none => rfl
  | some p => rfl

theorem lastDeclared?_parameters (s : Source) (item : PathItem) (e : Endpoint)
    (location name : String) : lastDeclared? location name (parameters s item e).value =
      lastDeclared? location name
        ((item.parameters ++ e.parameters).filterMap s.document.parameter?) := by
  rw [lastDeclared?, value_parameters, declarationsOf_overlaid]
  cases lastDeclared? location name
    ((item.parameters ++ e.parameters).filterMap s.document.parameter?) with
  | none => rfl
  | some p => rfl

/-! ## Parameters of an operation -/

theorem value_parameterType (s : Source) (context : String) (p : Parameter) :
    (parameterType s context p).value = p.type s.preservedNames := by
  unfold parameterType Parameter.type
  split
  · rename_i hnone
    rw [hnone]
    rfl
  · rename_i schema hsome
    rw [hsome, Option.bind_some]
    cases Classify.typeRef s.preservedNames schema with
    | ok t => rfl
    | error cause => rfl

theorem get?_located (location name : String) (ps : List Parameter) :
    (located location ps).get? name = lastDeclared? location name ps := by
  rw [located, Dict.get?_ofList_map]
  exact Option.map_id'

/-- A path parameter as the last declaration of its name has it, or as text. -/
def declaredPathParam (keep : List String) (ps : List Parameter) (name : String) : PathParam :=
  match lastDeclared? "path" name ps with
  | some p => ⟨name,p.type keep,p.description⟩
  | none => ⟨name,.text,none⟩

def declaredQueryParam (keep : List String) (p : Parameter) : QueryParam :=
  ⟨p.name,p.type keep,p.required,p.description⟩

theorem value_pathParams (s : Source) (id path : String) (ps : List Parameter) :
    (pathParams s id path ps).value =
      (Template.placeholders path).map (declaredPathParam s.preservedNames ps) := by
  simp only [pathParams, Logged.value_bind, Logged.value_mapM]
  apply List.map_congr_left
  intro name _
  rw [get?_located, declaredPathParam]
  cases lastDeclared? "path" name ps with
  | none => rfl
  | some p => rw [Logged.value_bind, Logged.value_pure, value_parameterType]

/-- The query parameters by their names. -/
def queryTable (keep : List String) (ps : List Parameter) : Dict QueryParam :=
  .ofList ((declaredAt "query" ps).map fun p => (p.name,declaredQueryParam keep p))

theorem value_queryParams (s : Source) (ps : List Parameter) :
    (queryParams s ps).value = (queryTable s.preservedNames ps).values := by
  have hparam (p : Parameter) : (queryParam s p).value = declaredQueryParam s.preservedNames p := by
    rw [queryParam, Logged.value_bind, Logged.value_pure, value_parameterType, declaredQueryParam]
  simp only [queryParams, Logged.value_bind, Logged.value_pure, Logged.value_mapM, List.map_map,
    queryTable, Function.comp_def, hparam]
  rfl

theorem get?_queryTable (ps : List Parameter) (name : String) :
    (queryTable keep ps).get? name =
      (lastDeclared? "query" name ps).map (declaredQueryParam keep) := by
  rw [queryTable, Dict.get?_ofList_map]
  rfl

theorem name_of_queryTable {ps : List Parameter} {name : String} {q : QueryParam}
    (h : (queryTable keep ps).get? name = some q) : q.name = name := by
  rw [get?_queryTable] at h
  obtain ⟨p,hp,rfl⟩ := Option.map_eq_some_iff.mp h
  exact (of_lastDeclared? hp).2.2

theorem increasing_queryTable (ps : List Parameter) :
    (queryTable keep ps).values.Pairwise fun a b => a.name < b.name := by
  have hnames : (queryTable keep ps).values.map (·.name) = (queryTable keep ps).keys :=
    Dict.map_values_eq_keys fun _ _ => name_of_queryTable
  apply List.pairwise_map.mp
  rw [hnames]
  exact Dict.keys_increasing _

theorem mem_queryTable {ps : List Parameter} {q : QueryParam} :
    q ∈ (queryTable keep ps).values ↔
      ∃ p, lastDeclared? "query" q.name ps = some p ∧ q = declaredQueryParam keep p := by
  rw [Dict.mem_values_iff]
  constructor
  · rintro ⟨name,hname⟩
    obtain rfl := name_of_queryTable hname
    rw [get?_queryTable] at hname
    obtain ⟨p,hp,hq⟩ := Option.map_eq_some_iff.mp hname
    exact ⟨p,hp,hq.symm⟩
  · rintro ⟨p,hp,hq⟩
    refine ⟨q.name,?_⟩
    rw [get?_queryTable, hp, hq]
    rfl

theorem mem_names_queryTable {ps : List Parameter} {name : String} :
    name ∈ (queryTable keep ps).values.map (·.name) ↔
      ∃ p ∈ ps, p.location = "query" ∧ p.name = name := by
  rw [List.mem_map]
  constructor
  · rintro ⟨q,hq,rfl⟩
    obtain ⟨p,hp,_⟩ := mem_queryTable.mp hq
    exact ⟨p,of_lastDeclared? hp⟩
  · rintro ⟨p,hp,hlocation,rfl⟩
    obtain ⟨last,hlast⟩ := exists_lastDeclared? hp
    rw [hlocation] at hlast
    have hname : last.name = p.name := (of_lastDeclared? hlast).2.2
    rw [← hname] at hlast
    exact ⟨declaredQueryParam keep last,mem_queryTable.mpr ⟨last,hlast,rfl⟩,hname⟩

/-- A table of query parameters is what the last declaration of each name says. -/
theorem queryTable_congr {ps ps' : List Parameter}
    (h : ∀ name, lastDeclared? "query" name ps = lastDeclared? "query" name ps') :
    queryTable keep ps = queryTable keep ps' := by
  apply Dict.eq_of_get?
  intro name q
  rw [get?_queryTable, get?_queryTable, h]

theorem lastDeclared?_congr {location : String} {ps ps' : List Parameter}
    (h : declaredAt location ps = declaredAt location ps') (name : String) :
    lastDeclared? location name ps = lastDeclared? location name ps' := by
  rw [lastDeclared?, declarationsOf, h, lastDeclared?, declarationsOf]

theorem declaredPathParam_congr {ps ps' : List Parameter}
    (h : declaredAt "path" ps = declaredAt "path" ps') (name : String) :
    declaredPathParam keep ps name = declaredPathParam keep ps' name := by
  rw [declaredPathParam, lastDeclared?_congr h, declaredPathParam]

/-- What an operation takes is what is declared for it. -/
structure TakesDeclared (keep : List String) (ps : List Parameter) (op : Operation) : Prop where
  path : op.pathParams = (Template.placeholders op.path).map (declaredPathParam keep ps)
  queryIncreasing : op.queryParams.Pairwise fun a b => a.name < b.name
  queryNames : ∀ name, name ∈ op.queryParams.map (·.name) ↔
    ∃ p ∈ ps, p.location = "query" ∧ p.name = name
  query : ∀ q ∈ op.queryParams, ∃ p, lastDeclared? "query" q.name ps = some p ∧
    q = declaredQueryParam keep p

theorem takesDeclared_of_eq {ps : List Parameter} {op : Operation}
    (hpath : op.pathParams = (Template.placeholders op.path).map (declaredPathParam keep ps))
    (hquery : op.queryParams = (queryTable keep ps).values) : TakesDeclared keep ps op where
  path := hpath
  queryIncreasing := by
    rw [hquery]
    exact increasing_queryTable ps
  queryNames name := by
    rw [hquery]
    exact mem_names_queryTable
  query q hq := mem_queryTable.mp (hquery ▸ hq)

/-! ## Operations of a document -/

/-- The operation's endpoint in the document, and what was made of its declarations. -/
theorem exists_declared_of_mem_api {s : Source} {op : Operation}
    (hop : op ∈ (api s).value.operations) :
    ∃ ps, s.document.DeclaresParameters op.route ps ∧
      op.pathParams =
        (Template.placeholders op.path).map (declaredPathParam s.preservedNames ps) ∧
      op.queryParams = (queryTable s.preservedNames ps).values := by
  obtain ⟨e,he,names,owner,rfl⟩ := exists_entry_of_mem_walk s [] _ hop
  obtain ⟨hitem,hendpoint⟩ := mem_entries.mp he
  have hlast := lastDeclared?_parameters s e.item e.endpoint
  rw [value_operation]
  refine ⟨_,⟨e.item,e.endpoint,hitem,hendpoint,rfl⟩,?_,?_⟩
  · rw [value_pathParams]
    apply List.map_congr_left
    intro name _
    rw [declaredPathParam, hlast, declaredPathParam]
  · rw [value_queryParams, queryTable_congr (hlast "query")]

/-- An operation has the parameters that the last declarations of their names give it. Declarations
at one location decide about the parameters there and about no others. -/
theorem parameters_overlaid (c : Config) (d : Document) :
    (∀ op ∈ (api (.of c d)).value.operations, ∃ ps, d.DeclaresParameters op.route ps ∧
      TakesDeclared c.preservedNames ps op) ∧
    ∀ d' : Document, ∀ op ∈ (api (.of c d)).value.operations,
      ∀ op' ∈ (api (.of c d')).value.operations, ∀ ps ps',
        d.DeclaresParameters op.route ps → d'.DeclaresParameters op'.route ps' →
          (op'.path = op.path → declaredAt "path" ps' = declaredAt "path" ps →
            op'.pathParams = op.pathParams) ∧
          (declaredAt "query" ps' = declaredAt "query" ps → op'.queryParams = op.queryParams) := by
  constructor
  · intro op hop
    obtain ⟨ps,hps,hpath,hquery⟩ := exists_declared_of_mem_api hop
    exact ⟨ps,hps,takesDeclared_of_eq hpath hquery⟩
  · intro d' op hop op' hop' ps ps' hps hps'
    obtain ⟨found,hfound,hpath,hquery⟩ := exists_declared_of_mem_api hop
    obtain ⟨found',hfound',hpath',hquery'⟩ := exists_declared_of_mem_api hop'
    obtain rfl := Document.DeclaresParameters.unique hfound hps
    obtain rfl := Document.DeclaresParameters.unique hfound' hps'
    constructor
    · intro hsame hdeclared
      rw [hpath, hpath', hsame]
      exact List.map_congr_left fun name _ => declaredPathParam_congr hdeclared name
    · intro hdeclared
      rw [hquery, hquery', queryTable_congr (lastDeclared?_congr hdeclared)]
      rfl

/-- A path that declares its parameter by a reference, with an operation that has more to say. -/
def ferries (more : List (OrRef Parameter)) : Document where
  paths := .ofList [("/ferries/{id}/decks/{deck}/{id}",⟨some ⟨some "listDecks",none,none,["ferry"],
    none,more,none,.empty⟩,none,none,none,none,
    [.ref "#/components/parameters/Ferry",.ref "#/components/parameters/Gone"]⟩)]
  components := some ⟨.empty,.ofList [("Ferry",⟨"id","path",true,some "of a ferry",whole⟩)],.empty⟩
where
  whole : Option Schema := Schema.ofJson? (.object [("type",.text "integer")])

/-- The second declaration of the page number replaces the first one, and has no type. -/
def pages : List (OrRef Parameter) :=
  [.here ⟨"page","query",false,none,ferries.whole⟩,.here ⟨"id","header",false,none,none⟩,
    .here ⟨"all","query",false,none,none⟩,
    .here ⟨"page","query",true,some "of the list",Schema.ofJson? (.object [("$ref",.text "#/")])⟩]

theorem parameters_overlaid_ferries :
    ∃ op ∈ (api (.of ⟨1,.default,[],"v4"⟩ (ferries pages))).value.operations,
      (∃ ps, (ferries pages).DeclaresParameters op.route ps ∧ TakesDeclared [] ps op) ∧
      op.pathParams = [⟨"id",.int64,some "of a ferry"⟩,⟨"deck",.text,none⟩,
        ⟨"id",.int64,some "of a ferry"⟩] ∧
      op.queryParams = [⟨"all",.text,false,none⟩,⟨"page",.text,true,some "of the list"⟩] ∧
      ∃ op' ∈ (api (.of ⟨1,.default,[],"v4"⟩ (ferries []))).value.operations,
        op'.pathParams = op.pathParams := by
  let route : Route := ("/ferries/{id}/decks/{deck}/{id}",.get)
  have hfull : (api (.of ⟨1,.default,[],"v4"⟩ (ferries pages))).value.operations.map
      (fun op => (op.route,op.pathParams,op.queryParams)) = [(route,
        [⟨"id",.int64,some "of a ferry"⟩,⟨"deck",.text,none⟩,⟨"id",.int64,some "of a ferry"⟩],
        [⟨"all",.text,false,none⟩,⟨"page",.text,true,some "of the list"⟩])] := by
    decide +kernel
  have hbare : (api (.of ⟨1,.default,[],"v4"⟩ (ferries []))).value.operations.map (·.route) =
      [route] := by
    decide +kernel
  obtain ⟨op,hop,hmade⟩ := List.mem_map.mp (hfull.symm ▸ List.mem_singleton_self _)
  obtain ⟨op',hop',hroute'⟩ := List.mem_map.mp (hbare.symm ▸ List.mem_singleton_self route)
  obtain ⟨hroute,hparams⟩ := Prod.mk.inj hmade
  obtain ⟨hpath,hquery⟩ := Prod.mk.inj hparams
  obtain ⟨hdeclared,halone⟩ := parameters_overlaid ⟨1,.default,[],"v4"⟩ (ferries pages)
  refine ⟨op,hop,hdeclared op hop,hpath,hquery,op',hop',?_⟩
  have hps (more : List (OrRef Parameter)) : (ferries more).DeclaresParameters route
      (([OrRef.ref "#/components/parameters/Ferry",.ref "#/components/parameters/Gone"] ++
        more).filterMap (ferries more).parameter?) := ⟨_,_,rfl,rfl,rfl⟩
  obtain ⟨hsame,_⟩ := halone (ferries []) op hop op' hop' _ _ (hroute.symm ▸ hps pages)
    (hroute'.symm ▸ hps [])
  exact hsame (congrArg Prod.fst (hroute'.trans hroute.symm)) rfl

end Extract
end ClientGen
