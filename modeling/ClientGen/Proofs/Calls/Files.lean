import ClientGen.Proofs.Data.Dict
import ClientGen.Proofs.Logged
import ClientGen.Sdk.Calls

/-! # Files of calls

One file for each operation, holding its function and nothing else, two more for each package, and
the index of all.
-/
namespace ClientGen

theorem Api.mem_packages {api : Api} {p : String} :
    p ∈ api.packages ↔ ∃ op ∈ api.operations, op.package = p := by
  simp [Api.packages]

theorem Api.mem_operationsOf {api : Api} {p : String} {op : Operation} :
    op ∈ api.operationsOf p ↔ op ∈ api.operations ∧ op.package = p := by
  simp [Api.operationsOf]

/-- A method is told from what follows it by the space between them. -/
theorem Method.name_append_inj {m n : Method} {s t : String}
    (h : m.name ++ (" " ++ s) = n.name ++ (" " ++ t)) : m = n ∧ s = t := by
  have hcut (m : Method) (s : String) :
      (m.name ++ (" " ++ s)).toList.takeWhile (· != ' ') = m.name.toList := by
    have hnone : ' ' ∉ m.name.toList := by cases m <;> decide
    have hletters : ∀ c ∈ m.name.toList, (c != ' ') = true := fun c hc =>
      bne_iff_ne.mpr fun he => hnone (he ▸ hc)
    have hspace : " ".toList = [' '] := rfl
    rw [String.toList_append, String.toList_append, List.takeWhile_append_of_pos hletters, hspace]
    simp
  have hname : m.name = n.name := String.toList_inj.mp (by rw [← hcut m s, h, hcut])
  rw [hname, String.append_right_inj, String.append_right_inj] at h
  cases m <;> cases n <;> first | exact ⟨rfl,h⟩ | exact absurd hname (by decide)

namespace Sdk.Calls
variable {models : List Model} {api : Api} {paths : ModulePaths}

/-- Where a package keeps a file. -/
def packagePath (package name : String) : Path :=
  Path.join (Ident.unraw (packageModule package)) name

def functionFile (scope : ModelScope) (paths : ModulePaths) (op : Operation) : Code.File :=
  ⟨packagePath op.package (Ident.unraw op.function ++ ".rs"),moduleOf scope paths op⟩

/-- The docs of its file tell an operation's path and method. -/
theorem request_eq_of_functionFile_eq {scope : ModelScope} {a b : Operation}
    (h : functionFile scope paths a = functionFile scope paths b) :
    a.path = b.path ∧ a.method = b.method := by
  have hline : requestLine a = requestLine b :=
    List.singleton_inj.mp (congrArg (·.module.docs) h)
  simp only [requestLine, String.append_assoc, String.append_right_inj] at hline
  obtain ⟨hmethod,hpath⟩ := Method.name_append_inj hline
  exact ⟨(String.append_left_inj "`").mp hpath,hmethod⟩

def optionsFile (api : Api) (paths : ModulePaths) (package : String) : Code.File :=
  ⟨packagePath package "options.rs",
    (QueryOptions.moduleOf paths package (api.operationsOf package)).value⟩

def packageIndex (api : Api) (package : String) : Code.File :=
  ⟨packagePath package "mod.rs",index package (api.operationsOf package)⟩

theorem value_packageFiles (scope : ModelScope) (package : String) :
    (packageFiles scope paths package (api.operationsOf package)).value =
      (api.operationsOf package).map (functionFile scope paths) ++
        [optionsFile api paths package,packageIndex api package] := by
  have hfile : ∀ op ∈ api.operationsOf package, functionFile scope paths op =
      ⟨packagePath package (Ident.unraw op.function ++ ".rs"),moduleOf scope paths op⟩ := by
    intro op hop
    rw [functionFile, (Api.mem_operationsOf.mp hop).2]
  rw [List.map_congr_left hfile]
  rfl

theorem value_files : (files models api paths).value =
    api.packages.flatMap (fun p => (packageFiles (.ofModels models (some paths.models)) paths p
      (api.operationsOf p)).value) ++ [⟨"mod.rs",root api.packages⟩] := by
  simp only [files, Logged.value_bind, Logged.value_pure, Logged.value_mapM, List.flatMap_def]

theorem mem_files {f : Code.File} : f ∈ (files models api paths).value ↔
    (∃ op ∈ api.operations, f = functionFile (.ofModels models (some paths.models)) paths op) ∨
    (∃ p ∈ api.packages, f = optionsFile api paths p ∨ f = packageIndex api p) ∨
    f = ⟨"mod.rs",root api.packages⟩ := by
  simp only [value_files, value_packageFiles, List.mem_append, List.mem_flatMap, List.mem_map,
    List.mem_cons, List.not_mem_nil, or_false]
  constructor
  · rintro (⟨p,hp,⟨op,hop,rfl⟩ | h⟩ | h)
    · exact .inl ⟨op,(Api.mem_operationsOf.mp hop).1,rfl⟩
    · exact .inr (.inl ⟨p,hp,h⟩)
    · exact .inr (.inr h)
  · rintro (⟨op,hop,rfl⟩ | ⟨p,hp,h⟩ | h)
    · exact .inl ⟨op.package,Api.mem_packages.mpr ⟨op,hop,rfl⟩,
        .inl ⟨op,Api.mem_operationsOf.mpr ⟨hop,rfl⟩,rfl⟩⟩
    · exact .inl ⟨p,hp,.inr h⟩
    · exact .inr h

end Sdk.Calls
end ClientGen
