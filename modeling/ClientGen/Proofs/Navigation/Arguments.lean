import ClientGen.Proofs.Signature
import ClientGen.Sdk.Navigation

/-! # Arguments of a call

A method of navigation has an argument for each argument of the function that it calls: a captured
value that fits, or a parameter of its own.
-/
namespace ClientGen.Sdk.Navigation
open Code (Expr)

/-! ## Passing a captured value -/

/-- The expression passes the value as an argument of the wanted type. -/
inductive Passes (c : Captured) : Scalar → Expr → Prop
  | text : c.scalar = .text → Passes c .text (.ref (self c.field))
  | value {wanted : Scalar} : c.scalar = wanted → wanted ≠ .text → Passes c wanted (self c.field)
  | shown : c.scalar ≠ .text → Passes c .text (.ref (.method (self c.field) "to_string" []))

/-- A value is of use for an argument of its own type, and for any text. -/
def Captured.Fits (c : Captured) (wanted : Scalar) : Prop :=
  c.scalar = wanted ∨ wanted = .text

theorem capturedArgument?_fits {c : Captured} {wanted : Scalar} (h : c.Fits wanted) :
    ∃ e, capturedArgument? wanted c = some e ∧ Passes c wanted e := by
  unfold capturedArgument?
  by_cases hs : c.scalar = wanted
  · cases hw : wanted with
    | text => exact ⟨_,by simp [hs, hw],.text (hs.trans hw)⟩
    | _ => exact ⟨_,by simp [hs, hw],.value (hs.trans hw) (by simp)⟩
  · obtain rfl := h.resolve_left hs
    exact ⟨_,by simp [hs],.shown hs⟩

theorem capturedArgument?_not_fits {c : Captured} {wanted : Scalar} (h : ¬ c.Fits wanted) :
    capturedArgument? wanted c = none := by
  obtain ⟨hs,ht⟩ := not_or.mp h
  simp [capturedArgument?, hs, ht]

theorem passes_of_capturedArgument? {c : Captured} {wanted : Scalar} {e : Expr}
    (h : capturedArgument? wanted c = some e) : Passes c wanted e := by
  by_cases hfits : c.Fits wanted
  · obtain ⟨e',he,hpass⟩ := capturedArgument?_fits hfits
    cases h.symm.trans he
    exact hpass
  · cases h.symm.trans (capturedArgument?_not_fits hfits)

/-! ## Arguments and parameters -/

theorem pathArgument_captured {cs : List Captured} {a : PathArgument} {n : Nat} {c : Captured}
    {e : Expr} (hc : cs.find? (·.node == n) = some c) (he : capturedArgument? a.scalar c = some e) :
    pathArgument cs a (some n) = (e,none) := by
  simp only [pathArgument, Option.bind_some, hc, he]

theorem pathArgument_param {cs : List Captured} {a : PathArgument} {owner : Option Nat}
    (h : (owner.bind fun n => (cs.find? (·.node == n)).bind (capturedArgument? a.scalar)) = none) :
    pathArgument cs a owner = (.path a.name,some a.param) := by
  simp only [pathArgument, h]

theorem pathArgument_snd (cs : List Captured) (a : PathArgument) (owner : Option Nat) :
    (pathArgument cs a owner).2 = none ∨ (pathArgument cs a owner).2 = some a.param := by
  unfold pathArgument
  split
  · exact .inl rfl
  · exact .inr rfl

theorem filterMap_sublist_map {α β : Type} {g : α → Option β} {f : α → β}
    (h : ∀ a, g a = none ∨ g a = some (f a)) (l : List α) :
    (l.filterMap g).Sublist (l.map f) := by
  induction l with
  | nil => exact .slnil
  | cons a l ih =>
    rcases h a with ha | ha
    · rw [List.filterMap_cons_none ha]
      exact ih.cons _
    · rw [List.filterMap_cons_some ha]
      exact ih.cons_cons _

variable (p : Plan) (scope : ModelScope) (paths : ModulePaths) (id : Nat) (op : Operation)

/-- The module that the function of an operation is called from. -/
def callPackage : String :=
  paths.services ++ "::" ++ packageModule op.package

/-- All arguments after the client. -/
def arguments : List (Expr × Option Code.Param) :=
  pathArguments p op (Signature.ofOperation scope paths op) id ++
    bodyArgument (Signature.ofOperation scope paths op) ++
    optionsArgument (callPackage paths op) op

theorem body_operationMethod : (operationMethod p scope paths id op).body =
    [.result (.await (.call (callPackage paths op ++ "::" ++ op.function)
      (self "client" :: (arguments p scope paths id op).map (·.1))))] := rfl

theorem params_operationMethod : (operationMethod p scope paths id op).params =
    (arguments p scope paths id op).filterMap (·.2) := rfl

variable {p scope paths id op} in
theorem mem_params {a : Expr × Option Code.Param} (h : a ∈ arguments p scope paths id op)
    {q : Code.Param} (hq : a.2 = some q) : q ∈ (operationMethod p scope paths id op).params := by
  rw [params_operationMethod]
  exact List.mem_filterMap.mpr ⟨a,h,hq⟩

/-- Parameters stand for arguments, in the order of the arguments. -/
theorem sublist_params : ((operationMethod p scope paths id op).params.map (·.name)).Sublist
    (Signature.argumentNames op ++ [Signature.bodyName op,"options"]) := by
  let s := Signature.ofOperation scope paths op
  have hpath : ((pathArguments p op s id).filterMap (·.2)).Sublist (s.path.map (·.param)) := by
    have hfst : s.path.zipIdx.map (fun x => x.1.param) = s.path.map (·.param) := by
      conv_rhs => rw [← List.zipIdx_map_fst 0 s.path, List.map_map]
      rfl
    rw [pathArguments, List.filterMap_map, ← hfst]
    exact filterMap_sublist_map
      (fun x => pathArgument_snd (p.captured id) x.1 ((owners p.tree op id)[x.2]?.getD none)) _
  have hnames : (s.path.map (·.param)).map (·.name) = Signature.argumentNames op := by
    rw [List.map_map]
    exact Signature.map_name_path scope paths op
  have hbody : (((bodyArgument s).filterMap (·.2)).map (·.name)).Sublist
      [Signature.bodyName op] := by
    simp only [bodyArgument, s, Signature.ofOperation]
    cases op.body with
    | none => exact List.nil_sublist _
    | some t => exact List.Sublist.refl _
  have hoptions : (((optionsArgument (callPackage paths op) op).filterMap (·.2)).map
      (·.name)).Sublist ["options"] := by
    rw [optionsArgument]
    split
    · exact List.Sublist.refl _
    · exact List.nil_sublist _
  rw [params_operationMethod, arguments, List.append_assoc, List.filterMap_append,
    List.filterMap_append, List.map_append, List.map_append, ← hnames]
  exact (hpath.map _).append (hbody.append hoptions)

/-- No two parameters share a name. -/
theorem nodup_params : ((operationMethod p scope paths id op).params.map (·.name)).Nodup :=
  (Signature.nodup_names op).sublist (sublist_params p scope paths id op)

end ClientGen.Sdk.Navigation
