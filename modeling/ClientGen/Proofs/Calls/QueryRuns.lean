import ClientGen.Proofs.Calls.Scopes
import ClientGen.Proofs.Code.Evaluation
import ClientGen.Proofs.QueryOptions

/-! # Running options

Running the function that builds the query string gives the pairs of the options that are set, in
the order of the options. A setter sets its option and no other.
-/
namespace ClientGen.Sdk.QueryOptions
open Code (Value Runtime Env)

/-! ## Formats -/

theorem toList_escapeBraces (s : String) :
    (escapeBraces s).toList = FormatString.doubled s.toList := by
  simp only [escapeBraces, Text.replaceChar, String.toList_ofList, List.flatMap_assoc,
    FormatString.doubled]
  apply List.flatMap_congr
  intro c _
  by_cases hopen : c = '{'
  · subst hopen
    decide
  · by_cases hclose : c = '}'
    · subst hclose
      decide
    · simp [FormatString.isBrace, hopen, hclose]

/-- The format of a pair stands for the name as it is, whatever braces are in it. -/
theorem format_pair (name value : String) :
    FormatString.format (escapeBraces name ++ "=\x7b\x7d") [value] =
      some (name ++ "=" ++ value) := by
  have hvalue : FormatString.formatted ['=','{','}'] [value.toList] =
      some ('=' :: (value.toList ++ [])) := rfl
  have hhole : "=\x7b\x7d".toList = ['=','{','}'] := rfl
  have htext : String.ofList (name.toList ++ '=' :: (value.toList ++ [])) =
      name ++ "=" ++ value := by
    rw [← String.toList_inj]
    simp
  rw [FormatString.format, String.toList_append, toList_escapeBraces, hhole,
    List.map_singleton, FormatString.formatted_doubled_append, hvalue, Option.map_some,
    Option.map_some, htext]

theorem format_query (pairs : String) :
    FormatString.format "?\x7b\x7d" [pairs] = some ("?" ++ pairs) := by
  have hvalue : FormatString.formatted "?\x7b\x7d".toList [pairs.toList] =
      some ('?' :: (pairs.toList ++ [])) := rfl
  have htext : String.ofList ('?' :: (pairs.toList ++ [])) = "?" ++ pairs := by
    rw [← String.toList_inj]
    simp
  rw [FormatString.format, List.map_singleton, hvalue, Option.map_some, htext]

/-! ## What the functions are for -/

section
variable {α : Type}

/-- A value of the scalar's type. -/
def Fits (scalar : Scalar) : Value α → Prop
  | .text _ => scalar = .text
  | .plain _ => scalar ≠ .text
  | _ => False

/-- The options as a struct holds them, each set or not. -/
def struct (os : List QueryOption) (given : String → Option (Value α)) :
    List (String × Value α) :=
  os.map fun o => (o.name,.option (given o.name))

/-- A value in the query string: text is encoded, other values are printed. -/
def written (rt : Runtime α) : Value α → String
  | .text s => rt.encode s
  | .plain x => rt.display x
  | _ => ""

/-- The pairs of the options that are set. -/
def pairsOf (rt : Runtime α) (given : String → Option (Value α)) (os : List QueryOption) :
    List String :=
  os.filterMap fun o => (given o.name).map fun v => o.param.name ++ "=" ++ written rt v

def queryString (rt : Runtime α) (given : String → Option (Value α)) (os : List QueryOption) :
    String :=
  let pairs := pairsOf rt given os
  if pairs.isEmpty then "" else "?" ++ "&".intercalate pairs

end

/-! ## Running the builder -/

section
variable {α : Type} {rt : Runtime α} {env : Env α} {paths : ModulePaths} {o : QueryOption}

theorem literal?_eq (text : String) : Code.literal? text = some text :=
  Text.unquote?_quote text

theorem fieldOfSelf?_place (o : QueryOption) : Code.fieldOfSelf? (place o) = some o.name := by
  have hprefix : "self.".toList.isPrefixOf? (place o).toList = some o.name.toList := by
    rw [place, String.toList_append]
    exact List.isPrefixOf?_eq_some_iff_append_eq.mpr rfl
  rw [Code.fieldOfSelf?, hprefix, Option.map_some, String.ofList_toList]

theorem read?_place (env : Env α) (o : QueryOption) :
    env.read? (place o) = env.fields.lookup o.name := by
  have hself : place o ≠ "self" := by
    intro h
    have hfield := fieldOfSelf?_place o
    rw [h] at hfield
    cases hfield
  rw [Env.read?, if_neg hself, fieldOfSelf?_place]

theorem eval?_path (place : String) : (Code.Expr.path place).eval? rt env = env.read? place := by
  rw [Code.Expr.eval?]

/-- What the path of the encoder stands for. -/
theorem call?_encoder (h : rt.encoder = paths.runtime "encode_query") (s : String) :
    rt.call? (paths.runtime "encode_query") [.text s] = some (.text (rt.encode s)) := by
  have hsome : paths.runtime "encode_query" ≠ "Some" := by
    intro he
    have hlength := congrArg String.length he
    rw [ModulePaths.runtime, String.length_append, String.length_append] at hlength
    have hname : "encode_query".length = 12 := rfl
    have htarget : "Some".length = 4 := rfl
    omega
  rw [Runtime.call?, if_neg hsome, if_pos h.symm]
  rfl

/-- A format of one hole, filled. -/
theorem eval?_format {template shown : String} {e : Code.Expr} {v : Value α}
    (he : e.eval? rt env = some v) (hv : v.display? rt = some shown) :
    (Code.Expr.bang "format" [.str template,e]).eval? rt env =
      (FormatString.format template [shown]).map .text := by
  simp [Code.Expr.eval?, Code.evalAll?, literal?_eq, he, hv]

/-- What is bound to an option's value in the format of its pair. -/
def pairValue (paths : ModulePaths) (o : QueryOption) : Code.Expr :=
  match o.scalar with
  | .text => .call (paths.runtime "encode_query") [.path "value"]
  | _ => .path "value"

theorem pushPair_eq (paths : ModulePaths) (o : QueryOption) : pushPair paths o =
    .ifLet "Some(value)" (.ref (.path (place o))) [.run (.method (.path "pairs") "push"
      [.bang "format" [.str (escapeBraces o.param.name ++ "=\x7b\x7d"),pairValue paths o]])] := by
  unfold pushPair pairValue
  cases o.scalar <;> rfl

theorem eval?_pairValue (h : rt.encoder = paths.runtime "encode_query") {v : Value α}
    (hfits : Fits o.scalar v) (hvalue : env.read? "value" = some v) :
    ∃ shown, (pairValue paths o).eval? rt env = some shown ∧
      shown.display? rt = some (written rt v) := by
  cases v with
  | text s =>
    have hscalar : o.scalar = .text := hfits
    refine ⟨.text (rt.encode s),?_,rfl⟩
    rw [pairValue, hscalar]
    simp only [Code.Expr.eval?, Code.evalAll?, hvalue, Option.bind_some, Option.map_some,
      call?_encoder h]
  | plain x =>
    refine ⟨.plain x,?_,rfl⟩
    unfold pairValue
    split
    · rename_i hscalar
      exact absurd hscalar hfits
    · rw [eval?_path, hvalue]
  | _ => exact hfits.elim

theorem run?_push {list : String} {items : List (Value α)} {e : Code.Expr} {v : Value α}
    {after : Env α} (he : e.eval? rt env = some v) (hlist : env.read? list = some (.list items))
    (hafter : env.write? list (.list (items ++ [v])) = some after) :
    (Code.Stmt.run (.method (.path list) "push" [e])).run? rt env = some (after,none) := by
  rw [Code.Stmt.run?, if_pos rfl, he, Option.bind_some, hlist]
  simp only [hafter, Option.map_some]

/-- An option that is set adds its pair, and one that is not adds nothing. -/
theorem run?_pushPair (h : rt.encoder = paths.runtime "encode_query")
    {given : String → Option (Value α)} {fields : List (String × Value α)}
    (hfield : fields.lookup o.name = some (.option (given o.name)))
    (hfits : ∀ v, given o.name = some v → Fits o.scalar v) (pairs : List String) :
    (pushPair paths o).run? rt ⟨fields,[("pairs",.list (pairs.map .text))]⟩ =
      some (⟨fields,[("pairs",.list ((pairs ++ pairsOf rt given [o]).map .text))]⟩,none) := by
  have hpattern : Code.boundBySome? "Some(value)" = some "value" := by decide
  have hsubject : (Code.Expr.ref (.path (place o))).eval? rt
      ⟨fields,[("pairs",.list (pairs.map .text))]⟩ = some (.option (given o.name)) := by
    rw [Code.Expr.eval?, eval?_path, read?_place, hfield]
  rw [pushPair_eq, Code.Stmt.run?, hpattern, hsubject]
  cases hgiven : given o.name with
  | none => simp [pairsOf, hgiven]
  | some v =>
    let inner : Env α := ⟨fields,[("value",v),("pairs",.list (pairs.map .text))]⟩
    have hvalue : inner.read? "value" = some v := rfl
    have hpairs : inner.read? "pairs" = some (.list (pairs.map .text)) := rfl
    obtain ⟨shown,hshown,hdisplay⟩ := eval?_pairValue h (hfits v hgiven) hvalue
    have hpair := (eval?_format hshown hdisplay).trans
      (congrArg (Option.map Value.text) (format_pair o.param.name (written rt v)))
    have hpush := run?_push hpair hpairs rfl
    simp only [Code.runBlock?, Env.bind]
    rw [hpush]
    simp [Env.leave, pairsOf, hgiven, inner]

theorem pairsOf_cons (rt : Runtime α) (given : String → Option (Value α)) (o : QueryOption)
    (os : List QueryOption) :
    pairsOf rt given (o :: os) = pairsOf rt given [o] ++ pairsOf rt given os := by
  rw [pairsOf, pairsOf, pairsOf, ← List.filterMap_append, List.singleton_append]

/-- The pairs collect in the order of the options; what follows is run on them. -/
theorem runBlock?_pushPairs (h : rt.encoder = paths.runtime "encode_query")
    {given : String → Option (Value α)} {fields : List (String × Value α)}
    {os : List QueryOption}
    (hfields : ∀ o ∈ os, fields.lookup o.name = some (.option (given o.name)))
    (hfits : ∀ o ∈ os, ∀ v, given o.name = some v → Fits o.scalar v) (pairs : List String)
    (rest : List Code.Stmt) :
    Code.runBlock? rt ⟨fields,[("pairs",.list (pairs.map .text))]⟩
        (os.map (pushPair paths) ++ rest) =
      Code.runBlock? rt
        ⟨fields,[("pairs",.list ((pairs ++ pairsOf rt given os).map .text))]⟩ rest := by
  induction os generalizing pairs with
  | nil => simp [pairsOf]
  | cons o os ih =>
    obtain ⟨hfield,hfields⟩ := List.forall_mem_cons.mp hfields
    obtain ⟨hfit,hfits⟩ := List.forall_mem_cons.mp hfits
    rw [List.map_cons, List.cons_append, Code.runBlock?, run?_pushPair h hfield hfit]
    simp only
    rw [ih hfields hfits, pairsOf_cons rt given o os, List.append_assoc]

theorem mapM_text? (texts : List String) :
    (texts.map (Value.text (α := α))).mapM Value.text? = some texts := by
  induction texts with
  | nil => rfl
  | cons s rest ih => rw [List.map_cons, List.mapM_cons, ih]; rfl

theorem runBlock?_result {e : Code.Expr} {v : Value α} (he : e.eval? rt env = some v) :
    Code.runBlock? rt env [.result e] = some (env,some v) := by
  rw [Code.runBlock?, Code.Stmt.run?, he]
  rfl

theorem run?_joinPairs (fields : List (String × Value α)) (pairs : List String) :
    joinPairs.run? rt ⟨fields,[("pairs",.list (pairs.map .text))]⟩ =
      some (⟨fields,[("pairs",.list (pairs.map .text))]⟩,
        some (.text (if pairs.isEmpty then "" else "?" ++ "&".intercalate pairs))) := by
  generalize henv : (⟨fields,[("pairs",.list (pairs.map .text))]⟩ : Env α) = env
  have hpairs : (Code.Expr.path "pairs").eval? rt env = some (.list (pairs.map .text)) :=
    henv ▸ rfl
  have hcond : (Code.Expr.method (.path "pairs") "is_empty" []).eval? rt env =
      some (.truth pairs.isEmpty) := by
    rw [Code.Expr.eval?, hpairs, ← List.isEmpty_map]
    rfl
  have hleave : env.leave env = env := by rw [Env.leave, Nat.sub_self, List.drop_zero]
  rw [joinPairs, Code.Stmt.run?, hcond]
  cases pairs.isEmpty with
  | true =>
    have hnew : (Code.Expr.call "String::new" []).eval? rt env = some (.text "") := rfl
    simp only
    rw [runBlock?_result hnew, Option.map_some, hleave, if_true]
  | false =>
    have hjoin : (Code.Expr.method (.path "pairs") "join" [.str "&"]).eval? rt env =
        some (.text ("&".intercalate pairs)) := by
      rw [Code.Expr.eval?, hpairs, Option.bind_some, Code.evalAll?, Code.Expr.eval?, literal?_eq]
      simp only [Option.map_some, Option.bind_some, Code.evalAll?, Value.call?, if_true,
        mapM_text?]
    have hquery : (Code.Expr.bang "format" [.str "?\x7b\x7d",
        .method (.path "pairs") "join" [.str "&"]]).eval? rt env =
          some (.text ("?" ++ "&".intercalate pairs)) := by
      rw [eval?_format hjoin rfl, format_query, Option.map_some]
    simp only
    rw [runBlock?_result hquery, Option.map_some, hleave, if_neg Bool.false_ne_true]

/-- Running the body gives the query string. -/
theorem runBlock?_queryBody (h : rt.encoder = paths.runtime "encode_query")
    {given : String → Option (Value α)} {fields : List (String × Value α)}
    {os : List QueryOption}
    (hfields : ∀ o ∈ os, fields.lookup o.name = some (.option (given o.name)))
    (hfits : ∀ o ∈ os, ∀ v, given o.name = some v → Fits o.scalar v) :
    (Code.runBlock? rt ⟨fields,[]⟩ (queryBody paths os)).bind (·.2) =
      some (.text (queryString rt given os)) := by
  unfold queryBody
  split
  · rename_i hempty
    rw [List.isEmpty_iff.mp hempty]
    have hnew : (Code.Expr.call "String::new" []).eval? rt ⟨fields,[]⟩ = some (.text "") := rfl
    rw [runBlock?_result hnew]
    rfl
  · have hnew : (Code.Expr.call "Vec::new" []).eval? rt ⟨fields,[]⟩ = some (.list []) := rfl
    have hpairs := runBlock?_pushPairs h hfields hfits [] [joinPairs]
    rw [List.cons_append, Code.runBlock?, Code.Stmt.run?, hnew]
    simp only [Option.map_some, Env.bind]
    rw [List.map_nil] at hpairs
    rw [hpairs, Code.runBlock?, run?_joinPairs, List.nil_append]
    rfl

theorem struct_cons (given : String → Option (Value α)) (o : QueryOption)
    (os : List QueryOption) :
    struct (o :: os) given = (o.name,.option (given o.name)) :: struct os given := rfl

theorem lookup_struct (given : String → Option (Value α)) {os : List QueryOption}
    (ho : o ∈ os) : (struct os given).lookup o.name = some (.option (given o.name)) := by
  induction os with
  | nil => cases ho
  | cons p rest ih =>
    rw [struct_cons, Dict.lookup_cons]
    split
    · rename_i hname
      rw [hname]
    · rename_i hname
      rcases List.mem_cons.mp ho with rfl | ho
      · exact absurd rfl hname
      · exact ih ho

theorem call?_eq {f : Code.Function} {names : List String} {fields : List (String × Value α)}
    {args : List (Value α)} (hnames : f.params.map (·.name) = names)
    (hlength : names.length = args.length) : f.call? rt fields args =
      (Code.runBlock? rt ⟨fields,names.zip args⟩ f.body).bind (·.2) := by
  have hparams : f.params.length = args.length := by
    rw [← hlength, ← hnames, List.length_map]
  rw [Code.Function.call?, if_pos hparams, hnames]

/-- The builder, run on options that are set or not. -/
theorem call?_buildQuery (h : rt.encoder = paths.runtime "encode_query")
    {given : String → Option (Value α)} {os : List QueryOption}
    (hfits : ∀ o ∈ os, ∀ v, given o.name = some v → Fits o.scalar v) :
    (buildQuery paths os).call? rt (struct os given) [] =
      some (.text (queryString rt given os)) := by
  have hrun := runBlock?_queryBody h (fun _ => lookup_struct given) hfits
  rw [call?_eq rfl rfl]
  exact hrun

example :
    let os : List QueryOption := [⟨"a",⟨"\x7b\"a\\",.text,false,none⟩,.text⟩,
      ⟨"b",⟨"b",.bool,false,none⟩,.bool⟩,⟨"page",⟨"page",.int64,false,none⟩,.int64⟩]
    let rt : Runtime Nat := ⟨ModulePaths.default.runtime "encode_query",("%" ++ ·),toString⟩
    let given (name : String) : Option (Value Nat) :=
      if name = "a" then some (.text "x") else if name = "page" then some (.plain 7) else none
    ((buildQuery .default os).call? rt (struct os given) []).bind Value.text? =
      some "?\x7b\"a\\=%x&page=7" := by
  decide +kernel

/-! ## Running the setters -/

theorem struct_update_of_not_mem {os : List QueryOption} {name : String}
    (h : name ∉ os.map (·.name)) (given : String → Option (Value α)) (v : Option (Value α)) :
    struct os (Function.update given name v) = struct os given := by
  apply List.map_congr_left
  intro p hp
  have hne : p.name ≠ name := fun he => h (he ▸ List.mem_map_of_mem hp)
  rw [Function.update_of_ne hne]

theorem setFirst_struct {os : List QueryOption} (hnames : (os.map (·.name)).Nodup) (ho : o ∈ os)
    (given : String → Option (Value α)) (v : Value α) :
    Code.setFirst o.name (.option (some v)) (struct os given) =
      some (struct os (Function.update given o.name (some v))) := by
  induction os with
  | nil => cases ho
  | cons p rest ih =>
    obtain ⟨hfirst,hrest⟩ := List.nodup_cons.mp hnames
    rw [struct_cons, struct_cons, Code.setFirst]
    by_cases hname : p.name = o.name
    · simp only [hname] at hfirst
      rw [if_pos hname, hname, Function.update_self, struct_update_of_not_mem hfirst]
    · have ho : o ∈ rest := by
        rcases List.mem_cons.mp ho with rfl | ho
        · exact absurd rfl hname
        · exact ho
      rw [if_neg hname, ih hrest ho, Option.map_some, Function.update_of_ne hname]

/-- What a setter stores. -/
def setterValue (o : QueryOption) : Code.Expr :=
  match o.scalar with
  | .text => .method (.path "value") "into" []
  | _ => .path "value"

theorem body_setter (o : QueryOption) : (setter o).body =
    [.assign (place o) (.call "Some" [setterValue o]),.result (.path "self")] := by
  unfold setter setterValue
  cases o.scalar <;> rfl

theorem eval?_setterValue {v : Value α} (hfits : Fits o.scalar v)
    (hvalue : env.read? "value" = some v) : (setterValue o).eval? rt env = some v := by
  cases v with
  | text s =>
    have hscalar : o.scalar = .text := hfits
    rw [setterValue, hscalar]
    simp only [Code.Expr.eval?, Code.evalAll?, hvalue, Option.bind_some, Value.call?, if_true]
  | plain x =>
    unfold setterValue
    split
    · rename_i hscalar
      exact absurd hscalar hfits
    · rw [eval?_path, hvalue]
  | _ => exact hfits.elim

/-- A setter sets its option to the value, and leaves the others. -/
theorem call?_setter {os : List QueryOption} (hnames : (os.map (·.name)).Nodup) (ho : o ∈ os)
    (given : String → Option (Value α)) {v : Value α} (hfits : Fits o.scalar v) :
    (setter o).call? rt (struct os given) [v] =
      some (.record (struct os (Function.update given o.name (some v)))) := by
  let env : Env α := ⟨struct os given,[("value",v)]⟩
  have hvalue : (setterValue o).eval? rt env = some v := eval?_setterValue hfits rfl
  have hsome : (Code.Expr.call "Some" [setterValue o]).eval? rt env = some (.option (some v)) := by
    simp only [Code.Expr.eval?, Code.evalAll?, hvalue, Option.bind_some, Option.map_some,
      Runtime.call?, if_true]
  have hassign : (Code.Stmt.assign (place o) (.call "Some" [setterValue o])).run? rt env =
      some (⟨struct os (Function.update given o.name (some v)),[("value",v)]⟩,none) := by
    rw [Code.Stmt.run?, hsome, Option.bind_some, Env.write?, fieldOfSelf?_place]
    simp only [env, setFirst_struct hnames ho given v, Option.map_some]
  rw [call?_eq (setter_eq o).2 rfl, body_setter, List.zip_cons_cons, List.zip_nil_left,
    Code.runBlock?, hassign]
  rfl

end

end ClientGen.Sdk.QueryOptions
