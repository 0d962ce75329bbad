import ClientGen.Proofs.Extract.Partition
import ClientGen.Proofs.FilePaths
import ClientGen.Proofs.Navigation.Items
import ClientGen.Proofs.Navigation.Supplied

/-! # Calls between passes

Navigation and services are made one without the other. Still each method that calls a service names
a function that is there, passes what that function takes, and returns what it returns.
-/
namespace ClientGen.Generator
open Sdk

/-- What both passes know of the models. -/
def scope (g : Generator) : ModelScope :=
  .ofModels g.models.value (some g.paths.models)

/-- The services have a file at this path with this module. -/
def ServicesHave (g : Generator) (path : Path) (m : Code.Module) : Prop :=
  ⟨path,m⟩ ∈ (g.files .services).value

/-- The services have a file with the function of an operation and nothing else, under the module of
its package. -/
structure Offered (g : Generator) (op : Operation) (callee : Code.Function) : Prop where
  kind : callee.isPublic = true ∧ callee.isAsync = true ∧ callee.name = op.function
  file : ∃ m, m.items = [.function callee] ∧
    g.ServicesHave (Calls.packagePath op.package (Ident.unraw op.function ++ ".rs")) m
  package : ∃ m, .mod true op.function ∈ m.items ∧
    .use true (.names op.function [op.function]) ∈ m.items ∧
    .use true (.names "options" ["Options"]) ∈ m.items ∧
    g.ServicesHave (Calls.packagePath op.package "mod.rs") m
  root : ∃ m, .mod true (packageModule op.package) ∈ m.items ∧ g.ServicesHave "mod.rs" m
  only (op' : Operation) (h : op' ∈ g.api.value.operations) (hp : op'.package = op.package)
    (hf : op'.function = op.function) : op' = op

/-- All that the services write to the path of an operation's function is this function. -/
def OfferedAlone (g : Generator) (op : Operation) (callee : Code.Function) : Prop :=
  ∃ f : Code.File, (g.files .services).value.filter
      (·.path == Calls.packagePath op.package (Ident.unraw op.function ++ ".rs")) = [f] ∧
    f.module.items = [.function callee]

/-- The method, of this struct, calls the function with arguments that agree with the parameters in
number and, position by position, in type. -/
structure CallAgrees (g : Generator) (op : Operation) (s : Code.Struct)
    (caller callee : Code.Function) : Prop where
  receiver : caller.receiver = some .ref
  result : caller.result = callee.result
  distinct : (caller.params.map (·.name)).Nodup
  takes : callee.params.map (·.type) = (Role.ofOperation g.scope op).map (Role.type g.paths)
  call : ∃ fields args, s.body = .fields fields ∧ (fields.map (·.name)).Nodup ∧
    caller.body = [.result (.await (.call (g.paths.services ++ "::" ++ packageModule op.package ++
      "::" ++ callee.name) args))] ∧
    args.length = callee.params.length ∧
    List.Forall₂ (Navigation.Supplies g.paths (g.paths.services ++ "::" ++ packageModule op.package)
      fields caller.params) (Role.ofOperation g.scope op) args

variable {g : Generator} {op : Operation}

theorem offered (hop : op ∈ g.api.value.operations) :
    g.Offered op (Calls.function g.scope g.paths op) where
  kind := ⟨rfl,rfl,rfl⟩
  file := by
    refine ⟨Calls.moduleOf g.scope g.paths op,rfl,?_⟩
    rw [ServicesHave, value_files_services]
    exact Calls.mem_files.mpr (.inl ⟨op,hop,rfl⟩)
  package := by
    have hown := Api.mem_operationsOf.mpr ⟨hop,rfl⟩
    have hindex : ∀ i ∈ Calls.indexItems op,
        i ∈ (Calls.index op.package (g.api.value.operationsOf op.package)).items := fun i hi =>
      List.mem_append_right _ (List.mem_flatMap.mpr ⟨op,hown,hi⟩)
    refine ⟨Calls.index op.package (g.api.value.operationsOf op.package),
      hindex _ (by simp [Calls.indexItems]),hindex _ (by simp [Calls.indexItems]),
      by simp [Calls.index],?_⟩
    rw [ServicesHave, value_files_services]
    exact Calls.mem_files.mpr (.inr (.inl ⟨op.package,Api.mem_packages.mpr ⟨op,hop,rfl⟩,.inr rfl⟩))
  root := by
    refine ⟨Calls.root g.api.value.packages,?_,?_⟩
    · exact List.mem_map.mpr ⟨op.package,Api.mem_packages.mpr ⟨op,hop,rfl⟩,rfl⟩
    · rw [ServicesHave, value_files_services]
      exact Calls.mem_files.mpr (.inr (.inr rfl))
  only op' h hp hf := Extract.eq_of_place_eq _ hop h (Prod.ext hp hf)

theorem offeredAlone_iff (hop : op ∈ g.api.value.operations) :
    g.OfferedAlone op (Calls.function g.scope g.paths op) ↔ ∀ op' ∈ g.api.value.operations,
      Calls.directory op'.package = Calls.directory op.package → op'.function = op.function →
        op' = op := by
  constructor
  · rintro ⟨f,hf,_⟩ op' hop' hdirectory hfunction
    have hmem {o : Operation} (ho : o ∈ g.api.value.operations)
        (hpath : (Calls.functionFile g.scope g.paths o).path =
          Calls.packagePath op.package (Ident.unraw op.function ++ ".rs")) :
        Calls.functionFile g.scope g.paths o = f := by
      refine List.mem_singleton.mp (hf ▸ List.mem_filter.mpr ⟨?_,beq_iff_eq.mpr hpath⟩)
      rw [value_files_services]
      exact Calls.mem_files.mpr (.inl ⟨o,ho,rfl⟩)
    have hpath : (Calls.functionFile g.scope g.paths op').path =
        Calls.packagePath op.package (Ident.unraw op.function ++ ".rs") := by
      rw [Calls.directory, Calls.directory] at hdirectory
      simp only [Calls.functionFile, Calls.packagePath, hdirectory, hfunction]
    obtain ⟨hpath,hmethod⟩ :=
      Calls.request_eq_of_functionFile_eq ((hmem hop' hpath).trans (hmem hop rfl).symm)
    exact Extract.eq_of_route_eq g.config g.document hop hop' (Prod.ext hpath hmethod)
  · intro hone
    have hitems : (Calls.functionFile g.scope g.paths op).module.items =
        [.function (Calls.function g.scope g.paths op)] := rfl
    refine ⟨_,?_,hitems⟩
    rw [value_files_services]
    exact (Calls.placed_api _).filter_path_eq hop hone

theorem offeredAlone_of_table (hop : op ∈ g.api.value.operations)
    (h : ∀ p ∈ g.config.naming.servicePackages.values, Ident.snake p = p) :
    g.OfferedAlone op (Calls.function g.scope g.paths op) := by
  refine (offeredAlone_iff hop).mpr fun op' hop' hdirectory hfunction => ?_
  have hpackage : op'.package = op.package := (servicesApart_of_table h).directories
    _ (Api.mem_packages.mpr ⟨op',hop',rfl⟩) _ (Api.mem_packages.mpr ⟨op,hop,rfl⟩) hdirectory
  exact Extract.eq_of_place_eq _ hop hop' (Prod.ext hpackage hfunction)

theorem callAgrees (p : Navigation.Plan) (id : Nat) (op : Operation) (name : String) :
    g.CallAgrees op (Navigation.nodeStruct p g.paths id)
      { Navigation.operationMethod p g.scope g.paths id op with name }
      (Calls.function g.scope g.paths op) where
  receiver := rfl
  result := rfl
  distinct := Navigation.nodup_params p g.scope g.paths id op
  takes := Calls.map_type_params g.scope g.paths op
  call := by
    have hsupplies := Navigation.supplies_arguments p g.scope g.paths id op
    have htakes := congrArg List.length (Calls.map_type_params g.scope g.paths op)
    rw [List.length_map, List.length_map] at htakes
    exact ⟨_,_,rfl,Navigation.nodup_nodeFields p g.paths id,rfl,
      hsupplies.length_eq.symm.trans htakes.symm,hsupplies⟩

/-- Every method of navigation that calls a service calls the function of an operation as this
function is declared. Nothing else is written to the path of the function exactly if no other
operation has its name and a package of the same directory, which the packages of a table in snake
case ensure. -/
theorem exists_callAgrees {file : Code.File} (hfile : file ∈ (g.files .builder).value)
    {i : Code.Impl} (hi : .impl i ∈ file.module.items) {f : Code.Function}
    (hf : .function f ∈ i.members) (hasync : f.isAsync = true) :
    ∃ op ∈ g.api.value.operations, ∃ s callee, .struct s ∈ file.module.items ∧
      i.target = .generic s.name [.path "'a"] ∧ g.Offered op callee ∧
      g.CallAgrees op s f callee ∧
      (g.OfferedAlone op callee ↔ ∀ op' ∈ g.api.value.operations,
        Calls.directory op'.package = Calls.directory op.package → op'.function = op.function →
          op' = op) ∧
      ((∀ p ∈ g.config.naming.servicePackages.values, Ident.snake p = p) →
        g.OfferedAlone op callee) := by
  rw [value_files_builder] at hfile
  obtain rfl := List.mem_singleton.mp hfile
  obtain ⟨id,hid,he | he⟩ := Navigation.mem_items.mp hi
  · cases he
  · cases he
    obtain ⟨_,he,hmaker⟩ := Navigation.of_mem_members hf
    cases he
    rcases hmaker with rfl | ⟨child,_,name,rfl⟩ | ⟨k,_,op,hop,name,rfl⟩
    · cases hasync
    · cases hasync
    · have hmem := List.mem_of_getElem? hop
      exact ⟨op,hmem,_,_,Navigation.mem_items.mpr ⟨id,hid,.inl rfl⟩,rfl,offered hmem,
        callAgrees _ id op name,offeredAlone_iff hmem,offeredAlone_of_table hmem⟩

def plainSchema : Schema where
  type := none
  ref := none
  title := none
  description := none
  format := none
  properties := .empty
  required := []
  items := none
  enumValues := none
  oneOf := none
  additional := none
  const := none
  nullable := none

def boxNumber : Parameter :=
  ⟨"box","path",true,none,
    some { plainSchema with type := some (.one "integer"), format := some "int32" }⟩

def letterBody : RequestBody :=
  ⟨true,[("application/json",some { plainSchema with ref := some "#/components/schemas/Letter" })]⟩

/-- A number that is captured and sent as text, a body and query options. -/
def postOffice : Generator where
  document :=
    { paths := .ofList [
        ("/v4/boxes/{box}",⟨some ⟨none,none,none,["post"],none,[.here boxNumber],none,.empty⟩,
          none,none,none,none,[]⟩),
        ("/v4/boxes/{id}/letters",⟨none,some ⟨none,none,none,["post"],none,
          [.here ⟨"urgent","query",false,none,none⟩],some letterBody,.empty⟩,none,none,none,[]⟩)]
      components := some ⟨.ofList [("Letter",.object [("type",.text "string"),
        ("enum",.list [.text "short",.text "long"])])],.empty,.empty⟩ }
  config := { version := 1, naming := .default, preservedNames := [], rootSegment := "v4" }
  paths := .default

/-- The operations at the nodes of navigation become methods. -/
theorem exists_async_method (g : Generator) (id k : Nat)
    (hid : id ∈ (Navigation.Plan.of (.build g.api.value.operations) g.config.rootSegment).order)
    (hk : k ∈ (RouteTree.build g.api.value.operations).operationsAt id)
    (hlength : k < g.api.value.operations.length) :
    ∃ i : Code.Impl, .impl i ∈ g.builderFile.module.items ∧
      ∃ f : Code.Function, .function f ∈ i.members ∧ f.isAsync = true := by
  obtain ⟨name,hf⟩ := Navigation.exists_operation_member
    (p := .of (.build g.api.value.operations) g.config.rootSegment) hk
    (List.getElem?_eq_getElem hlength)
  exact ⟨_,Navigation.mem_items.mpr ⟨id,hid,.inr rfl⟩,_,hf,rfl⟩

theorem exists_callAgrees_postOffice : ∃ file ∈ (postOffice.files .builder).value,
    ∃ i : Code.Impl, .impl i ∈ file.module.items ∧
      ∃ f : Code.Function, .function f ∈ i.members ∧ f.isAsync = true ∧
        ∃ op ∈ postOffice.api.value.operations, ∃ s callee, .struct s ∈ file.module.items ∧
          i.target = .generic s.name [.path "'a"] ∧ postOffice.Offered op callee ∧
          postOffice.CallAgrees op s f callee ∧ postOffice.OfferedAlone op callee := by
  have hfile : postOffice.builderFile ∈ (postOffice.files .builder).value := by
    rw [value_files_builder]
    exact List.mem_singleton_self _
  obtain ⟨i,hi,f,hf,hasync⟩ := exists_async_method postOffice 4 1
    (by decide +kernel) (by decide +kernel) (by decide +kernel)
  have htable : ∀ p ∈ postOffice.config.naming.servicePackages.values, Ident.snake p = p := by
    decide
  obtain ⟨op,hop,s,callee,hs,htarget,hoffered,hagrees,_,halone⟩ :=
    exists_callAgrees hfile hi hf hasync
  exact ⟨_,hfile,i,hi,f,hf,hasync,op,hop,s,callee,hs,htarget,hoffered,hagrees,halone htable⟩

/-- Two functions of one name, in packages that share a directory. -/
def twinLists : Generator where
  document :=
    { paths := .ofList [("/a",tagged "list" "Alpha"),("/b",tagged "list" "beta")]
      components := none }
  config := twinPackages.config
  paths := .default

/-- Each of the two is written to the file that the other one needs. -/
theorem twinLists_share_file :
    twinLists.config.validate "sdkgen.toml" = .ok twinLists.config ∧
    ∃ file ∈ (twinLists.files .builder).value, ∃ i : Code.Impl, .impl i ∈ file.module.items ∧
      ∃ f : Code.Function, .function f ∈ i.members ∧ f.isAsync = true ∧
        ¬ ∃ op ∈ twinLists.api.value.operations, ∃ s callee, .struct s ∈ file.module.items ∧
          i.target = .generic s.name [.path "'a"] ∧ twinLists.Offered op callee ∧
          twinLists.CallAgrees op s f callee ∧ twinLists.OfferedAlone op callee := by
  have hfile : twinLists.builderFile ∈ (twinLists.files .builder).value := by
    rw [value_files_builder]
    exact List.mem_singleton_self _
  obtain ⟨i,hi,f,hf,hasync⟩ := exists_async_method twinLists 1 0
    (by decide +kernel) (by decide +kernel) (by decide +kernel)
  have htwo : ∀ op ∈ twinLists.api.value.operations, ((twinLists.files .services).value.filter
      (·.path == Calls.packagePath op.package (Ident.unraw op.function ++ ".rs"))).length = 2 := by
    decide +kernel
  refine ⟨rfl,_,hfile,i,hi,f,hf,hasync,?_⟩
  rintro ⟨op,hop,_,_,_,_,_,_,_,honly,_⟩
  have hlength := htwo op hop
  rw [honly] at hlength
  cases hlength

end ClientGen.Generator
