import ClientGen.Proofs.Calls.Files
import ClientGen.Proofs.Code.Docs
import ClientGen.Proofs.DataTypes.Declarations
import ClientGen.Proofs.Navigation.Items
import ClientGen.Proofs.Passes
import ClientGen.Proofs.QueryOptions
import ClientGen.Proofs.RouteTree.Build

/-! # Docs of each pass

Docs hold free text, which is cut into lines, and texts of the document and the configuration that
are quoted as they stand. A comment of generated code ends where it should exactly as long as no
text of the second kind has a break.
-/
namespace ClientGen.Sdk
open Code (Item Unbroken isDocLine)

/-! ## Data types -/

namespace DataTypes
variable {s : ModelSet} {models : List Model} {m : Model}

theorem docs_importItems (names : List String) : (importItems names).flatMap Item.docs = [] := by
  unfold importItems
  split <;> rfl

theorem docs_unionImpl? {owner union : String} {i : Code.Impl}
    (h : unionImpl? s owner union = some i) : (Item.impl i).docs = [] := by
  unfold unionImpl? at h
  simp only [Option.bind_eq_bind, Option.bind_eq_some_iff, Option.pure_def, Option.some.injEq] at h
  obtain ⟨_,_,_,_,rfl⟩ := h
  rfl

/-- The field that the docs of a model quote. -/
def quotedField? (m : Model) : Option String :=
  match m.kind with
  | .record r => r.discriminator.map (·.field)
  | _ => none

theorem unbroken_discriminatorImpl {owner : String} {d : Discriminator} :
    Unbroken (Item.impl (discriminatorImpl owner d)).docs ↔ isDocLine d.field = true := by
  have hdocs : (Item.impl (discriminatorImpl owner d)).docs =
      ["Value of the `" ++ d.field ++ "` discriminator."] := rfl
  rw [hdocs]
  exact Code.unbroken_quoted (by decide) (by decide)

theorem unbroken_recordItems {r : Record} :
    Unbroken ((recordItems s m r (docsOf m.description)).flatMap Item.docs) ↔
      ∀ d, r.discriminator = some d → isDocLine d.field = true := by
  have hstruct {fields : List Code.Field} (h : ∀ f ∈ fields, Unbroken f.docs) : Unbroken
      (Item.struct ⟨docsOf m.description,[dataDerives],m.name,[],.fields fields⟩).docs := by
    rw [Item.docs, Code.unbroken_append, Code.StructBody.docs, Code.unbroken_flatMap]
    exact ⟨unbroken_docsOf m.description,h⟩
  have hfields : ∀ f ∈ (r.fields.zip (fieldNames r.fields)).map fun p =>
      fieldCode s m.name p.1 p.2, Unbroken f.docs := by
    intro f hf
    obtain ⟨⟨field,_⟩,_,rfl⟩ := List.mem_map.mp hf
    exact unbroken_docsOf field.description
  have hitems : recordItems s m r (docsOf m.description) =
      .struct ⟨docsOf m.description,[dataDerives],m.name,[],.fields
          ((r.fields.zip (fieldNames r.fields)).map fun p => fieldCode s m.name p.1 p.2)⟩ ::
        (r.discriminator.map fun d => Item.impl (discriminatorImpl m.name d)).toList ++
        (m.implements.filterMap (unionImpl? s m.name)).map Item.impl := rfl
  have hunions : Unbroken
      (((m.implements.filterMap (unionImpl? s m.name)).map Item.impl).flatMap Item.docs) := by
    rw [Code.unbroken_flatMap]
    intro item hitem
    obtain ⟨i,hi,rfl⟩ := List.mem_map.mp hitem
    obtain ⟨_,_,hunion⟩ := List.mem_filterMap.mp hi
    rw [docs_unionImpl? hunion]
    exact Code.unbroken_nil
  -- only the discriminator is left
  simp only [hitems, List.flatMap_append, List.flatMap_cons, Code.unbroken_append,
    hstruct hfields, hunions, true_and, and_true]
  cases r.discriminator with
  | none => simp
  | some d => simpa using unbroken_discriminatorImpl

section
variable {docs : List String} (h : Unbroken docs)
include h

theorem unbroken_alias (name : String) (t : Code.Ty) :
    Unbroken ([Item.alias ⟨docs,name,t⟩].flatMap Item.docs) := by
  simpa [Item.docs] using h

theorem unbroken_constantItems (name : String) (c : Constants) :
    Unbroken ((constantItems name c docs).flatMap Item.docs) := by
  simp only [constantItems, List.flatMap_cons, List.flatMap_nil, Item.docs, Code.StructBody.docs,
    List.append_nil, List.flatMap_append, Code.unbroken_append, Code.unbroken_flatMap]
  refine ⟨h,?_,Code.unbroken_nil⟩
  intro member hmember
  obtain ⟨_,_,rfl⟩ := List.mem_map.mp hmember
  exact Code.unbroken_nil

theorem unbroken_textEnumItems (name : String) (texts : List String) :
    Unbroken ((textEnumItems name texts docs).flatMap Item.docs) := by
  have hvariants : Unbroken (((textVariants texts).map fun p =>
      Code.Variant.mk [] [serde [rename p.2]] p.1 none).flatMap (·.docs)) := by
    rw [Code.unbroken_flatMap]
    intro variant hvariant
    obtain ⟨_,_,rfl⟩ := List.mem_map.mp hvariant
    exact Code.unbroken_nil
  have hvalue : isDocLine "Wire value of this variant." = true := by decide
  simp only [textEnumItems, List.flatMap_cons, List.flatMap_nil, Item.docs, Code.Member.docs,
    List.append_nil, Code.unbroken_append, Code.unbroken_cons, Code.unbroken_nil, and_true,
    Code.Function.public]
  exact ⟨⟨h,hvariants⟩,hvalue⟩

theorem unbroken_enumItems (name : String) (values : EnumValues) :
    Unbroken ((enumItems name values docs).value.flatMap Item.docs) := by
  cases values with
  | texts vs =>
    cases vs with
    | nil => exact unbroken_alias h name _
    | cons v vs => exact unbroken_textEnumItems h name (v :: vs)
  | integers vs => exact unbroken_constantItems h name _
  | numbers vs => exact unbroken_constantItems h name _
  | booleans vs => exact unbroken_constantItems h name _

theorem unbroken_unionItems (name : String) :
    Unbroken ((unionItems s name docs).value.flatMap Item.docs) := by
  unfold unionItems
  split
  · exact unbroken_alias h name anyValue
  · rw [Logged.value_pure, List.flatMap_singleton, Item.docs, Code.unbroken_append,
      Code.unbroken_flatMap]
    refine ⟨h,fun variant hvariant => ?_⟩
    obtain ⟨_,_,rfl⟩ := List.mem_map.mp hvariant
    exact Code.unbroken_nil

end

theorem unbroken_declarations : Unbroken ((declarations s m).value.flatMap Item.docs) ↔
    ∀ field, quotedField? m = some field → isDocLine field = true := by
  have hdocs := unbroken_docsOf m.description
  unfold declarations quotedField?
  cases m.kind with
  | record r =>
    rw [Logged.value_pure, unbroken_recordItems]
    simp
  | enum values => exact iff_of_true (unbroken_enumItems hdocs m.name values) (by simp)
  | «alias» target => exact iff_of_true (unbroken_alias hdocs m.name _) (by simp)
  | map value => exact iff_of_true (unbroken_alias hdocs m.name _) (by simp)
  | union members => exact iff_of_true (unbroken_unionItems hdocs m.name) (by simp)

theorem isDocLine_label (k : ModelKind) : isDocLine k.label = true := by
  cases k <;> (rw [ModelKind.label]; decide)

theorem unbroken_fileOf {named : String × Model} :
    Unbroken (fileOf models named).module.allDocs ↔ isDocLine named.2.sourceName = true ∧
      ∀ field, quotedField? named.2 = some field → isDocLine field = true := by
  have hafter : isDocLine ("` (" ++ named.2.kind.label ++ ")") = true := by
    rw [Code.isDocLine_append, Code.isDocLine_append]
    exact ⟨⟨by decide,isDocLine_label _⟩,by decide⟩
  have hdocs : (fileOf models named).module.docs =
      ["`" ++ named.2.sourceName ++ ("` (" ++ named.2.kind.label ++ ")")] := by
    simp only [fileOf, moduleOf, Logged.value_bind, Logged.value_pure, String.append_assoc]
  rw [Code.Module.allDocs, items_fileOf, hdocs, Code.unbroken_append,
    Code.unbroken_quoted (by decide) hafter, List.flatMap_append, docs_importItems,
    List.nil_append, unbroken_declarations]

theorem unbroken_indexFile : Unbroken (indexFile models).module.allDocs := by
  have hdoc : isDocLine "Data types for every component schema." = true := by decide
  simp only [indexFile, index, Code.Module.allDocs, List.flatMap_append, Code.unbroken_append,
    Code.unbroken_cons, Code.unbroken_flatMap]
  refine ⟨⟨hdoc,Code.unbroken_nil⟩,fun i hi => ?_,fun i hi => ?_⟩ <;>
    obtain ⟨_,_,rfl⟩ := List.mem_map.mp hi <;> exact Code.unbroken_nil

theorem unbroken_files : (∀ f ∈ (files models).value, Unbroken f.module.allDocs) ↔
    ∀ m ∈ models, isDocLine m.sourceName = true ∧
      ∀ field, quotedField? m = some field → isDocLine field = true := by
  rw [value_files]
  constructor
  · intro h m hm
    obtain ⟨module,hz⟩ := exists_module hm
    exact unbroken_fileOf.mp (h _ (List.mem_append_left _ (List.mem_map_of_mem hz)))
  · intro h f hf
    rcases List.mem_append.mp hf with hf | hf
    · obtain ⟨named,hz,rfl⟩ := List.mem_map.mp hf
      exact unbroken_fileOf.mpr (h named.2 (List.of_mem_zip hz).2)
    · rw [List.mem_singleton.mp hf]
      exact unbroken_indexFile

end DataTypes

/-! ## Calls -/

variable {paths : ModulePaths}

namespace QueryOptions
variable {package : String} {ops : List Operation}

theorem unbroken_setter {o : QueryOption} :
    Unbroken (setter o).docs ↔ isDocLine o.param.name = true := by
  have hdocs : (setter o).docs = ["Set the `" ++ o.param.name ++ "` query parameter."] := rfl
  rw [hdocs]
  exact Code.unbroken_quoted (by decide) (by decide)

theorem unbroken_buildQuery (os : List QueryOption) : Unbroken (buildQuery paths os).docs := by
  have hdocs : (buildQuery paths os).docs =
      ["Query string for the parameters that are set, with a leading `?`.","",
        "Returns an empty string when nothing is set."] := rfl
  rw [hdocs, Unbroken]
  decide

theorem isDocLine_params (package : String) (ops : List Operation) :
    (∀ o ∈ named (merge package ops).value, isDocLine o.param.name = true) ↔
      ∀ op ∈ ops, ∀ q ∈ op.queryParams, isDocLine q.name = true := by
  have hnames : (named (merge package ops).value).map (·.param.name) =
      (merge package ops).value.map (·.param.name) := by
    have hparams := congrArg (List.map (·.name)) (map_param_named (merge package ops).value)
    rwa [List.map_map, List.map_map] at hparams
  constructor
  · intro h op hop q hq
    have hname : q.name ∈ (merge package ops).value.map (·.param.name) :=
      mem_names_merge.mpr ⟨op,hop,q,hq,rfl⟩
    rw [← hnames] at hname
    obtain ⟨o,ho,he⟩ := List.mem_map.mp hname
    rw [← he]
    exact h o ho
  · intro h o ho
    have hname : o.param.name ∈ (named (merge package ops).value).map (·.param.name) :=
      List.mem_map_of_mem ho
    rw [hnames] at hname
    obtain ⟨op,hop,q,hq,he⟩ := mem_names_merge.mp hname
    rw [← he]
    exact h op hop q hq

theorem unbroken_moduleOf : Unbroken (moduleOf paths package ops).value.allDocs ↔
    isDocLine package = true ∧ ∀ op ∈ ops, ∀ q ∈ op.queryParams, isDocLine q.name = true := by
  have hfield (o : QueryOption) : Unbroken (field o).docs := unbroken_docsOf o.param.description
  have hstruct : isDocLine "Optional query parameters, all unset by default." = true := by decide
  have hnew : Unbroken new.docs := Code.unbroken_nil
  rw [← isDocLine_params package ops, moduleOf, Logged.value_bind, Logged.value_pure,
    Code.Module.allDocs, Code.unbroken_append, Code.unbroken_quoted (by decide) (by decide)]
  simp only [List.flatMap_cons, List.flatMap_nil, Item.docs, Code.StructBody.docs, List.map_append,
    List.map_cons, List.flatMap_append, Code.Member.docs, Code.unbroken_append, Code.unbroken_cons,
    Code.unbroken_nil, Code.unbroken_flatMap, List.forall_mem_map, unbroken_setter,
    unbroken_buildQuery, hstruct, hnew, hfield, List.map_nil, List.append_nil, and_true, true_and,
    implies_true]

end QueryOptions

namespace Calls
variable {scope : ModelScope} {api : Api} {op : Operation} {package : String}

theorem isDocLine_requestLine : isDocLine (requestLine op) = true ↔ isDocLine op.path = true := by
  have hmethod : isDocLine ("`" ++ op.method.name ++ " ") = true := by
    cases op.method <;> decide
  exact Code.isDocLine_quoted hmethod (by decide)

/-- The id stands in for a summary and a description without text. -/
theorem unbroken_docs : Unbroken (docs op) ↔
    (summaryDocs op.summary op.description = [] → isDocLine op.id = true) := by
  simp only [docs]
  split
  · rename_i hempty
    rw [List.isEmpty_iff] at hempty
    rw [Code.unbroken_quoted (by decide) (by decide)]
    simp [hempty]
  · rename_i hlines
    rw [List.isEmpty_iff] at hlines
    exact iff_of_true (unbroken_summaryDocs op.summary op.description) fun h => absurd h hlines

theorem unbroken_functionFile : Unbroken (functionFile scope paths op).module.allDocs ↔
    isDocLine op.path = true ∧
      (summaryDocs op.summary op.description = [] → isDocLine op.id = true) := by
  have hdocs : (functionFile scope paths op).module.allDocs = [requestLine op] ++ docs op := by
    simp [functionFile, moduleOf, Code.Module.allDocs, Item.docs, function]
  rw [hdocs, Code.unbroken_append, Code.unbroken_cons, isDocLine_requestLine, unbroken_docs]
  exact and_congr_left fun _ => and_iff_left Code.unbroken_nil

theorem unbroken_packageIndex :
    Unbroken (packageIndex api package).module.allDocs ↔ isDocLine package = true := by
  have hown : ∀ op ∈ api.operationsOf package, (indexItems op).flatMap Item.docs = [] :=
    fun _ _ => rfl
  have hitems : (index package (api.operationsOf package)).items.flatMap Item.docs = [] := by
    rw [index, List.flatMap_append, List.flatMap_assoc, List.flatMap_eq_nil_iff.mpr hown]
    rfl
  rw [packageIndex, Code.Module.allDocs, hitems, List.append_nil, index]
  exact Code.unbroken_quoted (by decide) (by decide)

theorem unbroken_root (packages : List String) : Unbroken (root packages).allDocs := by
  have hitems : (root packages).items.flatMap Item.docs = [] := by
    simp [root, Item.docs]
  rw [Code.Module.allDocs, hitems, List.append_nil, root, Code.unbroken_cons]
  exact ⟨by decide,Code.unbroken_nil⟩

theorem unbroken_files {models : List Model} :
    (∀ f ∈ (files models api paths).value, Unbroken f.module.allDocs) ↔
      ∀ op ∈ api.operations, isDocLine op.path = true ∧
        (summaryDocs op.summary op.description = [] → isDocLine op.id = true) ∧
        isDocLine op.package = true ∧ ∀ q ∈ op.queryParams, isDocLine q.name = true := by
  constructor
  · intro h op hop
    -- the operation's own file and the options of its package quote all there is
    have hpackage := Api.mem_packages.mpr ⟨op,hop,rfl⟩
    obtain ⟨hpath,hid⟩ := unbroken_functionFile.mp (h _ (mem_files.mpr (.inl ⟨op,hop,rfl⟩)))
    obtain ⟨hname,hquery⟩ := QueryOptions.unbroken_moduleOf.mp
      (h _ (mem_files.mpr (.inr (.inl ⟨_,hpackage,.inl rfl⟩))))
    exact ⟨hpath,hid,hname,hquery op (Api.mem_operationsOf.mpr ⟨hop,rfl⟩)⟩
  · intro h f hf
    rcases mem_files.mp hf with ⟨op,hop,rfl⟩ | ⟨p,hp,hf⟩ | rfl
    · exact unbroken_functionFile.mpr ⟨(h op hop).1,(h op hop).2.1⟩
    · obtain ⟨op,hop,rfl⟩ := Api.mem_packages.mp hp
      have hname := (h op hop).2.2.1
      rcases hf with rfl | rfl
      · refine QueryOptions.unbroken_moduleOf.mpr ⟨hname,fun other hother => ?_⟩
        exact (h other (Api.mem_operationsOf.mp hother).1).2.2.2
      · exact unbroken_packageIndex.mpr hname
    · exact unbroken_root api.packages

end Calls

/-! ## Navigation -/

namespace Navigation
variable {models : List Model} {ops : List Operation} {rootSegment : String}

theorem isDocLine_segment {path raw : String} (h : isDocLine path = true)
    (hraw : raw ∈ Template.segments path) : isDocLine raw = true := by
  obtain ⟨piece,hpiece,rfl⟩ := List.mem_map.mp hraw
  refine Code.isDocLine_of_subset (fun c hc => ?_) h
  rw [String.toList_ofList] at hc
  exact (Text.of_mem_splitOnP (List.mem_filter.mp hpiece).1 hc).1

section
variable (h : ∀ op ∈ ops, isDocLine op.path = true)
include h

theorem isDocLine_written (id : Nat) :
    isDocLine ((RouteTree.build ops).segmentOf id).written = true := by
  rcases RouteTree.segmentOf_cases ops id with he | ⟨op,hop,raw,hraw,hs⟩
  · rw [he]
    decide
  · rw [hs.written_eq]
    exact isDocLine_segment (h op hop) hraw

theorem isDocLine_routeDoc (id : Nat) :
    isDocLine (routeDoc (.of (.build ops) rootSegment) id) = true := by
  refine (Code.isDocLine_quoted (by decide) (by decide)).mpr ?_
  refine Code.isDocLine_append.mpr ⟨by decide,Code.isDocLine_intercalate (by decide) ?_⟩
  intro part hpart
  obtain ⟨n,_,rfl⟩ := List.mem_map.mp hpart
  exact isDocLine_written h n

theorem unbroken_nodeStruct (id : Nat) : Unbroken
    (Item.struct (nodeStruct (.of (.build ops) rootSegment) paths id)).docs := by
  have hentry : isDocLine "Entry point of the API navigation." = true := by decide
  have hfields : ∀ f ∈ privateField "client" (clientType paths) ::
      ((Plan.of (.build ops) rootSegment).captured id).map fun c =>
        privateField c.field (ownedType c.scalar), f.docs = [] := by
    intro f hf
    rcases List.mem_cons.mp hf with rfl | hf
    · rfl
    · obtain ⟨_,_,rfl⟩ := List.mem_map.mp hf
      rfl
  rw [Item.docs, Code.unbroken_append]
  refine ⟨?_,?_⟩
  · rw [nodeStruct]
    split
    · exact Code.unbroken_cons.mpr ⟨hentry,Code.unbroken_nil⟩
    · exact Code.unbroken_cons.mpr ⟨isDocLine_routeDoc h id,Code.unbroken_nil⟩
  · rw [nodeStruct, Code.StructBody.docs, List.flatMap_eq_nil_iff.mpr hfields]
    exact Code.unbroken_nil

theorem unbroken_operationDocs {op : Operation} (hop : op ∈ ops) : Unbroken (operationDocs op) := by
  rw [operationDocs, Code.unbroken_append, Code.unbroken_cons]
  refine ⟨?_,Calls.isDocLine_requestLine.mpr (h op hop),Code.unbroken_nil⟩
  split
  · exact Code.unbroken_nil
  · rw [Code.unbroken_append, Code.unbroken_cons]
    exact ⟨unbroken_summaryDocs op.summary op.description,by decide,Code.unbroken_nil⟩

theorem unbroken_nodeImpl (scope : ModelScope) (id : Nat) : Unbroken
    (Item.impl (nodeImpl (.of (.build ops) rootSegment) scope paths ops id)).docs := by
  rw [Item.docs, Code.unbroken_flatMap]
  intro member hmember
  obtain ⟨f,rfl,rfl | ⟨child,_,name,rfl⟩ | ⟨i,_,op,hop,name,rfl⟩⟩ := of_mem_members hmember
  · exact Code.unbroken_nil
  · exact Code.unbroken_cons.mpr ⟨isDocLine_routeDoc h child,Code.unbroken_nil⟩
  · exact unbroken_operationDocs h (List.mem_of_getElem? hop)

/-- Navigation quotes paths, whole or by their segments, and nothing else. -/
theorem unbroken_moduleOf : Unbroken (moduleOf models ops rootSegment paths).value.allDocs := by
  have hdocs : (moduleOf models ops rootSegment paths).value.docs =
      ["Fluent navigation over the API path structure.","",
        "Start from [`" ++ entryName ++ "::new`] and follow the URL segments."] := rfl
  rw [Code.Module.allDocs, Code.unbroken_append, hdocs, Code.unbroken_flatMap]
  refine ⟨by rw [Unbroken]; decide,fun i hi => ?_⟩
  obtain ⟨id,_,rfl | rfl⟩ := mem_items.mp hi
  · exact unbroken_nodeStruct h id
  · exact unbroken_nodeImpl h _ id

end
end Navigation
end ClientGen.Sdk

namespace ClientGen.Generator
open Sdk

/-- What docs quote as it stands. An id is quoted where an operation has no text about itself. -/
inductive Quoted (g : Generator) : String → Prop
  | schema {m : Model} (hm : m ∈ g.models.value) : g.Quoted m.sourceName
  | discriminator {m : Model} (hm : m ∈ g.models.value) {field : String}
    (hf : DataTypes.quotedField? m = some field) : g.Quoted field
  | path {op : Operation} (hop : op ∈ g.api.value.operations) : g.Quoted op.path
  | id {op : Operation} (hop : op ∈ g.api.value.operations)
    (hd : summaryDocs op.summary op.description = []) : g.Quoted op.id
  | package {op : Operation} (hop : op ∈ g.api.value.operations) : g.Quoted op.package
  | query {op : Operation} (hop : op ∈ g.api.value.operations) {q : QueryParam}
    (hq : q ∈ op.queryParams) : g.Quoted q.name

/-- Every comment of every pass ends where it should exactly as long as no quoted text has a
break. -/
theorem commentsHold_iff (g : Generator) :
    (∀ pass, ∀ f ∈ (g.files pass).value, f.module.CommentsHold) ↔
      ∀ text, g.Quoted text → Code.isDocLine text = true := by
  simp only [Code.Module.commentsHold_iff_unbroken]
  constructor
  · intro h text htext
    have hmodels := h .models
    have hservices := h .services
    rw [value_files_models, DataTypes.unbroken_files] at hmodels
    rw [value_files_services, Calls.unbroken_files] at hservices
    cases htext with
    | schema hm => exact (hmodels _ hm).1
    | discriminator hm hf => exact (hmodels _ hm).2 _ hf
    | path hop => exact (hservices _ hop).1
    | id hop hd => exact (hservices _ hop).2.1 hd
    | package hop => exact (hservices _ hop).2.2.1
    | query hop hq => exact (hservices _ hop).2.2.2 _ hq
  · intro h pass
    cases pass with
    | models =>
      rw [value_files_models, DataTypes.unbroken_files]
      intro m hm
      exact ⟨h _ (.schema hm),fun field hf => h field (.discriminator hm hf)⟩
    | services =>
      rw [value_files_services, Calls.unbroken_files]
      intro op hop
      exact ⟨h _ (.path hop),fun hd => h _ (.id hop hd),h _ (.package hop),
        fun q hq => h _ (.query hop hq)⟩
    | builder =>
      rw [value_files_builder]
      intro f hf
      rw [List.mem_singleton.mp hf]
      exact Navigation.unbroken_moduleOf fun op hop => h _ (.path hop)

/-- A schema with a break in its key. -/
def brokenKey : Generator where
  document :=
    { paths := .empty
      components := some ⟨.ofList [("a\nb",.object [("type",.text "object")])],.empty,.empty⟩ }
  config := defaultConfig
  paths := .default

theorem brokenKey_leaves_comment :
    ∃ f ∈ (brokenKey.files .models).value, ¬ f.module.CommentsHold := by
  have hschema : ∃ f ∈ (brokenKey.files .models).value,
      f.module.allDocs.any (fun line => !Code.isDocLine line) = true := by decide +kernel
  obtain ⟨f,hf,hany⟩ := hschema
  refine ⟨f,hf,fun h => ?_⟩
  obtain ⟨line,hline,hbreak⟩ := List.any_eq_true.mp hany
  rw [h.unbroken line hline] at hbreak
  cases hbreak

end ClientGen.Generator
