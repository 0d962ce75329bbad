import ClientGen.Proofs.Extract.PathParams
import ClientGen.Proofs.Passes
import ClientGen.Proofs.Signature
import ClientGen.Proofs.Template.Format

/-! # Request paths

The function of an operation with placeholders formats its arguments into the request path. What
comes out is the path with the arguments in their places exactly when the path has no brace outside
of placeholders.
-/
namespace ClientGen.Sdk.Calls
open Code (Expr)
variable {op : Operation}

/-- A format of the path arguments, one for each placeholder, that gives the path with their texts
in place of the placeholders, whatever these texts are. -/
def DenotesPath (op : Operation) (e : Expr) : Prop :=
  ∃ template, e = .bang "format" (.str template :: (Signature.argumentNames op).map .path) ∧
    (Signature.argumentNames op).length = (Template.placeholders op.path).length ∧
    ∀ texts : List String, texts.length = (Signature.argumentNames op).length →
      FormatString.format template texts = some (Template.instantiated op.path texts)

theorem length_argumentNames_eq (h : op.Extracted) :
    (Signature.argumentNames op).length = (Template.placeholders op.path).length := by
  rw [Signature.length_argumentNames, ← h.map_name_pathParams, List.length_map]

/-- As soon as there is a placeholder, the path is formatted. -/
theorem pathValue_eq (h : op.Extracted) (hp : Template.placeholders op.path ≠ [])
    (scope : ModelScope) (paths : ModulePaths) :
    pathValue op (.ofOperation scope paths op) = .bang "format"
      (.str (Template.holes op.path) :: (Signature.argumentNames op).map .path) := by
  have hnames := Signature.map_name_path scope paths op
  have hlength := length_argumentNames_eq h
  have hne : ¬ (Signature.ofOperation scope paths op).path.isEmpty = true := by
    intro hempty
    rw [List.isEmpty_iff] at hempty
    rw [hempty, List.map_nil] at hnames
    rw [← hnames] at hlength
    exact hp (List.length_eq_zero_iff.mp hlength.symm)
  rw [pathValue, if_neg hne, ← hnames, List.map_map]
  rfl

theorem denotesPath_holes (h : op.Extracted) :
    DenotesPath op (.bang "format"
      (.str (Template.holes op.path) :: (Signature.argumentNames op).map .path)) ↔
        Template.Plain op.path.toList := by
  have hlength := length_argumentNames_eq h
  rw [← Template.format_holes]
  constructor
  · rintro ⟨template,he,_,hformat⟩
    cases he
    intro texts htexts
    exact hformat texts (htexts.trans hlength.symm)
  · intro hformat
    exact ⟨_,rfl,hlength,fun texts htexts => hformat texts (htexts.trans hlength)⟩

/-- The request path of an extracted operation with placeholders is right for all arguments exactly
when no brace stands outside of placeholders. -/
theorem request_path_denotes_iff (h : op.Extracted) (hp : Template.placeholders op.path ≠ [])
    (scope : ModelScope) (paths : ModulePaths) :
    ∃ e rest, (function scope paths op).body = .bind "path" op.hasQuery none e :: rest ∧
      (DenotesPath op e ↔ Template.Plain op.path.toList) := by
  refine ⟨_,_,rfl,?_⟩
  rw [pathValue_eq h hp]
  exact denotesPath_holes h

/-- One operation, with this path. -/
def singleCall (path : String) : Generator where
  document := { paths := .ofList [(path,Generator.tagged "getA" "alpha")], components := none }
  config := Generator.defaultConfig
  paths := .default

theorem request_path_denotes_single : ∃ op ∈ (singleCall "/a/{id}").api.value.operations,
    Template.placeholders op.path ≠ [] ∧ ∃ e rest, (function ⟨[],none⟩ .default op).body =
      .bind "path" op.hasQuery none e :: rest ∧ DenotesPath op e := by
  have hpaths : (singleCall "/a/{id}").api.value.operations.map (·.path) = ["/a/{id}"] := by
    decide +kernel
  obtain ⟨op,hop,hpath⟩ := List.mem_map.mp (hpaths.symm ▸ List.mem_singleton_self "/a/{id}")
  have hp : Template.placeholders op.path ≠ [] := by
    rw [hpath]
    decide
  have hplain : Template.Plain op.path.toList := by
    rw [hpath]
    decide
  obtain ⟨e,rest,hbody,hiff⟩ :=
    request_path_denotes_iff (Extract.extracted_of_mem_api _ op hop) hp ⟨[],none⟩ .default
  exact ⟨op,hop,hp,e,rest,hbody,hiff.mpr hplain⟩

/-- A closing brace in front of the placeholder breaks the format string. -/
theorem request_path_broken_by_brace : ∃ op ∈ (singleCall "/a\x7d/{id}").api.value.operations,
    Template.placeholders op.path ≠ [] ∧ ∃ e rest, (function ⟨[],none⟩ .default op).body =
      .bind "path" op.hasQuery none e :: rest ∧ ¬ DenotesPath op e := by
  have hpaths : (singleCall "/a\x7d/{id}").api.value.operations.map (·.path) = ["/a\x7d/{id}"] := by
    decide +kernel
  obtain ⟨op,hop,hpath⟩ := List.mem_map.mp (hpaths.symm ▸ List.mem_singleton_self "/a\x7d/{id}")
  have hp : Template.placeholders op.path ≠ [] := by
    rw [hpath]
    decide
  have hbrace : ¬ Template.Plain op.path.toList := by
    rw [hpath]
    decide
  have hextracted := Extract.extracted_of_mem_api _ op hop
  refine ⟨op,hop,hp,_,_,rfl,?_⟩
  rw [pathValue_eq hextracted hp, denotesPath_holes hextracted]
  exact hbrace

end ClientGen.Sdk.Calls
