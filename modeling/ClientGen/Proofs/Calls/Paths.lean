import ClientGen.Proofs.Calls.Files
import ClientGen.Proofs.Extract.Functions
import ClientGen.Proofs.Ident.Snake

/-! # Paths of calls

The files of one package differ in name, and those of two packages in directory as long as the two
have different modules.
-/
namespace ClientGen

theorem Wordlike.slash_not_mem {cs : List Char} (h : Wordlike cs) : '/' ∉ cs := by
  intro hs
  rcases h _ hs with h | h <;> exact absurd h (by decide)

namespace Path

/-- A name goes after a slash when neither part has a slash of its own. -/
theorem join_eq {base rel : Path} (hne : base ≠ "") (hbase : '/' ∉ base.toList)
    (hrel : '/' ∉ rel.toList) : join base rel = base ++ "/" ++ rel := by
  have habsolute : isAbsolute rel = false := by
    refine decide_eq_false fun h => ?_
    exact hrel (List.mem_of_head? h)
  have hempty : base.isEmpty = false := by simpa using hne
  rw [join, habsolute, hempty, Bool.or_false, if_neg Bool.false_ne_true, if_neg]
  intro hlast
  exact hbase (List.mem_of_getLast? hlast)

/-- Parts without slashes are told from their path. -/
theorem slash_inj {base base' rel rel' : Path} (hbase : '/' ∉ base.toList)
    (hrel : '/' ∉ rel.toList) (h : base ++ "/" ++ rel = base' ++ "/" ++ rel') :
    base = base' ∧ rel = rel' := by
  have hslash : "/".toList = ['/'] := rfl
  have hlist := congrArg String.toList h
  simp only [String.toList_append, hslash, List.append_assoc, List.singleton_append] at hlist
  obtain ⟨hb,_,hr⟩ := (List.append_cons_inj_of_notMem hbase hrel).mp hlist
  exact ⟨String.toList_inj.mp hb,String.toList_inj.mp hr⟩

end Path

namespace Sdk.Calls
variable {models : List Model} {api : Api} {paths : ModulePaths}

/-! ## Names of files -/

def fileName (function : String) : Path :=
  Ident.unraw function ++ ".rs"

/-- What a package keeps in its directory. Options and index take the names that no function is
given. -/
def fileNames (api : Api) (package : String) : List Path :=
  ((api.operationsOf package).map (·.function) ++ Extract.reservedFunctions).map fileName

theorem map_path_packageFiles (scope : ModelScope) (package : String) :
    (packageFiles scope paths package (api.operationsOf package)).value.map (·.path) =
      (fileNames api package).map (packagePath package) := by
  have hreserved : Extract.reservedFunctions.map fileName = ["options.rs","mod.rs"] := by decide
  have hfile : ∀ op ∈ api.operationsOf package, (functionFile scope paths op).path =
      packagePath package (fileName op.function) := by
    intro op hop
    rw [functionFile, (Api.mem_operationsOf.mp hop).2, fileName]
  rw [value_packageFiles, fileNames, List.map_append, List.map_append, hreserved,
    List.map_append, List.map_map, List.map_map, List.map_map]
  refine congrArg₂ _ (List.map_congr_left hfile) ?_
  simp only [List.map_cons, List.map_nil, optionsFile, packageIndex]

theorem map_path_files : (files models api paths).value.map (·.path) =
    api.packages.flatMap (fun p => (fileNames api p).map (packagePath p)) ++ ["mod.rs"] := by
  rw [value_files, List.map_append, List.map_flatMap, List.map_singleton]
  simp only [map_path_packageFiles]

theorem index_mem_fileNames (p : String) : "mod.rs" ∈ fileNames api p := by
  rw [fileNames, List.map_append]
  exact List.mem_append_right _ (by decide)

theorem function_mem_names {op : Operation} (hop : op ∈ api.operations) :
    op.function ∈ (api.operationsOf op.package).map (·.function) ++ Extract.reservedFunctions :=
  List.mem_append_left _ (List.mem_map_of_mem (Api.mem_operationsOf.mpr ⟨hop,rfl⟩))

/-- Operations that the extractor made, with different functions in each package. -/
structure Placed (api : Api) : Prop where
  extracted : ∀ op ∈ api.operations, op.Extracted
  nodup : (api.operations.map (·.place)).Nodup

theorem placed_api (s : Extract.Source) : Placed (Extract.api s).value where
  extracted := Extract.extracted_of_mem_api s
  nodup := (Extract.places_walk s [] _).1

namespace Placed
variable (h : Placed api) (p : String)
include h

/-- The functions of a package and the names that none of them is given. -/
theorem nodup_functions :
    ((api.operationsOf p).map (·.function) ++ Extract.reservedFunctions).Nodup := by
  refine List.nodup_append'.mpr ⟨?_,by decide,?_⟩
  · have hplace : ((api.operationsOf p).map (·.place)).Nodup :=
      h.nodup.sublist (List.filter_sublist.map _)
    refine List.Nodup.map_on ?_ hplace.of_map
    intro a ha b hb hf
    refine List.inj_on_of_nodup_map hplace ha hb (Prod.ext ?_ hf)
    exact (Api.mem_operationsOf.mp ha).2.trans (Api.mem_operationsOf.mp hb).2.symm
  · intro f hf hreserved
    obtain ⟨op,hop,rfl⟩ := List.mem_map.mp hf
    exact (h.extracted op (Api.mem_operationsOf.mp hop).1).function_not_mem_reserved hreserved

theorem escaped {f : String}
    (hf : f ∈ (api.operationsOf p).map (·.function) ++ Extract.reservedFunctions) :
    Ident.Escaped f := by
  rcases List.mem_append.mp hf with hf | hf
  · obtain ⟨op,hop,rfl⟩ := List.mem_map.mp hf
    exact (h.extracted op (Api.mem_operationsOf.mp hop).1).escaped_function
  · simp only [Extract.reservedFunctions, List.mem_cons, List.not_mem_nil, or_false] at hf
    rcases hf with rfl | rfl
    · exact .plain (by simp [Wordlike]) (by decide)
    · exact .raw (k := "mod") (by decide)

/-- They stay apart without the mark of the raw form. -/
theorem nodup_bareNames : (((api.operationsOf p).map (·.function) ++
    Extract.reservedFunctions).map Ident.unraw).Nodup := by
  refine List.Nodup.map_on ?_ (h.nodup_functions p)
  intro f hf f' hf' he
  exact (h.escaped p hf).eq_of_unraw_eq (h.escaped p hf') he

theorem nodup_fileNames : (fileNames api p).Nodup := by
  have hbare := (h.nodup_bareNames p).map (f := (· ++ ".rs")) fun _ _ he =>
    (String.append_left_inj ".rs").mp he
  rwa [List.map_map] at hbare

theorem slash_not_mem {name : Path} (hname : name ∈ fileNames api p) : '/' ∉ name.toList := by
  obtain ⟨f,hf,rfl⟩ := List.mem_map.mp hname
  have hword := (h.escaped p hf).wordlike_unraw
  rw [fileName, String.toList_append, List.mem_append]
  exact fun hs => hs.elim hword.slash_not_mem (by simp)

end Placed

/-! ## Directories -/

def directory (package : String) : Path :=
  Ident.unraw (packageModule package)

theorem slash_not_mem_directory (p : String) : '/' ∉ (directory p).toList :=
  (Ident.escaped_bindingName p).wordlike_unraw.slash_not_mem

theorem directory_inj {p q : String} :
    directory p = directory q ↔ Ident.snake p = Ident.snake q := by
  rw [← Ident.bindingName_inj]
  refine ⟨fun h => ?_,fun h => by rw [directory, directory, packageModule, packageModule, h]⟩
  exact (Ident.escaped_bindingName p).eq_of_unraw_eq (Ident.escaped_bindingName q) h

/-- Where a package keeps a file: after its directory and a slash. -/
theorem packagePath_eq (p : String) {name : Path} (hname : '/' ∉ name.toList) :
    packagePath p name = directory p ++ "/" ++ name :=
  Path.join_eq (Ident.unraw_bindingName_ne_empty p) (slash_not_mem_directory p) hname

namespace Placed
variable (h : Placed api)
include h

theorem packagePath_inj {p q : String} {name name' : Path} (hname : name ∈ fileNames api p)
    (hname' : name' ∈ fileNames api q) (he : packagePath p name = packagePath q name') :
    Ident.snake p = Ident.snake q ∧ name = name' := by
  rw [packagePath_eq p (h.slash_not_mem p hname), packagePath_eq q (h.slash_not_mem q hname')] at he
  obtain ⟨hd,hn⟩ := Path.slash_inj (slash_not_mem_directory p) (h.slash_not_mem p hname) he
  exact ⟨directory_inj.mp hd,hn⟩

theorem nodup_packagePaths (p : String) : ((fileNames api p).map (packagePath p)).Nodup := by
  refine List.Nodup.map_on ?_ (h.nodup_fileNames p)
  intro name hname name' hname' he
  exact (h.packagePath_inj hname hname' he).2

theorem packagePath_ne_index {p : String} {name : Path} (hname : name ∈ fileNames api p) :
    packagePath p name ≠ "mod.rs" := by
  intro he
  rw [packagePath_eq p (h.slash_not_mem p hname)] at he
  have hslash : '/' ∈ "mod.rs".toList := by simp [← he]
  exact absurd hslash (by decide)

/-- Paths differ exactly when no two packages fall on one snake case. -/
theorem nodup_paths : ((files models api paths).value.map (·.path)).Nodup ↔
    ∀ p ∈ api.packages, ∀ q ∈ api.packages, Ident.snake p = Ident.snake q → p = q := by
  have hroot : "mod.rs" ∉ api.packages.flatMap fun p => (fileNames api p).map (packagePath p) := by
    intro hmem
    obtain ⟨p,_,hp⟩ := List.mem_flatMap.mp hmem
    obtain ⟨name,hname,he⟩ := List.mem_map.mp hp
    exact h.packagePath_ne_index hname he
  have hown : ∀ p ∈ api.packages, ((fileNames api p).map (packagePath p)).Nodup :=
    fun p _ => h.nodup_packagePaths p
  rw [map_path_files, ← List.concat_eq_append, List.nodup_concat, List.nodup_flatMap]
  constructor
  · rintro ⟨_,_,hdisjoint⟩ p hp q hq he
    by_contra hne
    have hsymm : Std.Symm (Function.onFun List.Disjoint fun p =>
        (fileNames api p).map (packagePath p)) := ⟨fun _ _ hd => List.Disjoint.symm hd⟩
    have hapart := hdisjoint.forall hp hq hne
    -- packages that share a directory share the index in it
    have hindex : packagePath p "mod.rs" = packagePath q "mod.rs" := by
      rw [packagePath_eq p (by decide), packagePath_eq q (by decide), directory_inj.mpr he]
    refine hapart (List.mem_map.mpr ⟨_,index_mem_fileNames p,rfl⟩) ?_
    exact List.mem_map.mpr ⟨_,index_mem_fileNames q,hindex.symm⟩
  · intro hinj
    refine ⟨hroot,hown,List.Pairwise.imp_of_mem ?_ (Dict.keys_nodup _)⟩
    intro p q hp hq hne path hpath hpath'
    obtain ⟨name,hname,rfl⟩ := List.mem_map.mp hpath
    obtain ⟨name',hname',he⟩ := List.mem_map.mp hpath'
    exact hne (hinj p hp q hq (h.packagePath_inj hname hname' he.symm).1)

/-! ## The file of a function -/

/-- What a package keeps at the path of a function is a function of the same name, and its directory
is that of the function's own package. -/
theorem exists_operation_of_path {scope : ModelScope} {p : String} {f : Code.File}
    (hf : f ∈ (packageFiles scope paths p (api.operationsOf p)).value) {op : Operation}
    (hop : op ∈ api.operations) (hpath : f.path = packagePath op.package (fileName op.function)) :
    ∃ op' ∈ api.operationsOf p, f = functionFile scope paths op' ∧
      directory p = directory op.package ∧ op'.function = op.function := by
  have hsame {g : String}
      (hg : g ∈ (api.operationsOf p).map (·.function) ++ Extract.reservedFunctions)
      (he : packagePath p (fileName g) = packagePath op.package (fileName op.function)) :
      directory p = directory op.package ∧ g = op.function := by
    obtain ⟨hsnake,hname⟩ := h.packagePath_inj (List.mem_map_of_mem hg)
      (List.mem_map_of_mem (function_mem_names hop)) he
    refine ⟨directory_inj.mpr hsnake,?_⟩
    exact (h.escaped p hg).eq_of_unraw_eq (h.escaped op.package (function_mem_names hop))
      ((String.append_left_inj ".rs").mp hname)
  have hreserved {g : String} {name : Path} (hg : g ∈ Extract.reservedFunctions)
      (hname : fileName g = name)
      (he : packagePath p name = packagePath op.package (fileName op.function)) : False := by
    obtain ⟨_,hfunction⟩ := hsame (List.mem_append_right _ hg) (hname ▸ he)
    exact (h.extracted op hop).function_not_mem_reserved (hfunction ▸ hg)
  rw [value_packageFiles] at hf
  rcases List.mem_append.mp hf with hf | hf
  · obtain ⟨op',hop',rfl⟩ := List.mem_map.mp hf
    have hp := (Api.mem_operationsOf.mp hop').2
    exact ⟨op',hop',rfl,hsame (List.mem_append_left _ (List.mem_map_of_mem hop')) (hp ▸ hpath)⟩
  · simp only [List.mem_cons, List.not_mem_nil, or_false] at hf
    rcases hf with rfl | rfl
    · simp only [optionsFile] at hpath
      exact (hreserved (g := "options") (by decide) (by decide) hpath).elim
    · simp only [packageIndex] at hpath
      exact (hreserved (g := "r#mod") (by decide) (by decide) hpath).elim

/-- It is the only file at its path as soon as no other function of this name has its directory. -/
theorem filter_path_eq {op : Operation} (hop : op ∈ api.operations)
    (hone : ∀ op' ∈ api.operations, directory op'.package = directory op.package →
      op'.function = op.function → op' = op) :
    (files models api paths).value.filter
        (·.path == packagePath op.package (fileName op.function)) =
      [functionFile (.ofModels models (some paths.models)) paths op] := by
  let path := packagePath op.package (fileName op.function)
  let block (p : String) := (packageFiles (.ofModels models (some paths.models)) paths p
    (api.operationsOf p)).value
  have hown : (block op.package).filter (·.path == path) =
      [functionFile (.ofModels models (some paths.models)) paths op] := by
    have hmem : functionFile (.ofModels models (some paths.models)) paths op ∈
        block op.package := by
      simp only [block, value_packageFiles]
      exact List.mem_append_left _
        (List.mem_map_of_mem (Api.mem_operationsOf.mpr ⟨hop,rfl⟩))
    have hnodup : ((block op.package).map (·.path)).Nodup := by
      simp only [block, map_path_packageFiles]
      exact h.nodup_packagePaths op.package
    exact filter_eq_of_mem hnodup hmem
  have hother : ∀ p ∈ api.packages, p ≠ op.package → (block p).filter (·.path == path) = [] := by
    intro p _ hne
    refine List.filter_eq_nil_iff.mpr fun f hf he => hne ?_
    obtain ⟨op',hop',_,hdirectory,hname⟩ := h.exists_operation_of_path hf hop (beq_iff_eq.mp he)
    obtain ⟨hmem,rfl⟩ := Api.mem_operationsOf.mp hop'
    exact congrArg Operation.package (hone op' hmem hdirectory hname)
  have hroot : [(⟨"mod.rs",root api.packages⟩ : Code.File)].filter (·.path == path) = [] := by
    have hne := h.packagePath_ne_index (List.mem_map_of_mem (function_mem_names hop))
    simp [path, hne.symm]
  have hpackages : (api.packages.map id).Nodup := by
    rw [List.map_id]
    exact Dict.keys_nodup _
  rw [value_files, List.filter_append, List.filter_flatMap, hroot, List.append_nil,
    flatMap_eq_of_mem hpackages (Api.mem_packages.mpr ⟨op,hop,rfl⟩) hother]
  exact hown

end Placed
end Sdk.Calls
end ClientGen
