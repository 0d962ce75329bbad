import ClientGen.Proofs.Navigation.Arguments
import ClientGen.Proofs.Navigation.Captured

/-! # Arguments of the right types

The function of an operation takes the client, the path's values, the body and the query options.
The method that calls it has something of the right type for each of them, from a field of its
struct or from a parameter.
-/
namespace ClientGen.Sdk

/-- What the function of an operation takes at a position. -/
inductive Role
  | client
  | path (scalar : Scalar)
  | body (type : Code.Ty)
  | options

namespace Role

/-- The type of the function's parameter. The options are those of the package around it. -/
def type (paths : ModulePaths) : Role → Code.Ty
  | client => .ref none (.path (paths.runtime "Client"))
  | path scalar => argumentType scalar
  | body type => .ref none type
  | options => .ref none (.path "super::Options")

/-- Of all arguments that an operation needs, in order. -/
def ofOperation (scope : ModelScope) (op : Operation) : List Role :=
  client :: op.pathParams.map (fun param => path param.type.scalar) ++
    (op.body.map fun t => body (scope.type t)).toList ++
    if op.hasQuery then [options] else []

end Role

theorem Calls.map_type_params (scope : ModelScope) (paths : ModulePaths) (op : Operation) :
    (Calls.function scope paths op).params.map (·.type) =
      (Role.ofOperation scope op).map (Role.type paths) := by
  have hpath : ((Signature.ofOperation scope paths op).path.map PathArgument.param).map (·.type) =
      (op.pathParams.map fun param => Role.path param.type.scalar).map (Role.type paths) := by
    have hscalar := congrArg (List.map argumentType) (Signature.map_scalar_path scope paths op)
    rw [List.map_map, List.map_map] at hscalar ⊢
    exact hscalar
  have hbody :
      ((Signature.ofOperation scope paths op).body.map BodyArgument.param).toList.map (·.type) =
        (op.body.map fun t => Role.body (scope.type t)).toList.map (Role.type paths) := by
    rw [Signature.ofOperation]
    cases op.body <;> rfl
  have hoptions :
      (if op.hasQuery then [(⟨"options",.ref none (.path "super::Options")⟩ : Code.Param)]
        else []).map (·.type) =
        (if op.hasQuery then [Role.options] else []).map (Role.type paths) := by
    split <;> rfl
  simp only [Calls.function, Calls.params, Role.ofOperation, List.map_append, List.map_cons,
    List.map_nil, hpath, hbody, hoptions]
  rfl

namespace Navigation
open Code (Expr)

/-- In a method with these parameters, of a struct with these fields, the expression is of the type
that the role asks for. -/
inductive Supplies (paths : ModulePaths) (package : String) (fields : List Code.Field)
    (params : List Code.Param) : Role → Expr → Prop
  | client (h : privateField "client" (clientType paths) ∈ fields) :
    Supplies paths package fields params .client (self "client")
  | text (name : String) (h : privateField name (ownedType .text) ∈ fields) :
    Supplies paths package fields params (.path .text) (.ref (self name))
  | shown (name : String) (scalar : Scalar) (hs : scalar ≠ .text)
    (h : privateField name (ownedType scalar) ∈ fields) :
    Supplies paths package fields params (.path .text)
      (.ref (.method (self name) "to_string" []))
  | value (name : String) (scalar : Scalar) (hs : scalar ≠ .text)
    (h : privateField name (ownedType scalar) ∈ fields) :
    Supplies paths package fields params (.path scalar) (self name)
  | param (name : String) (scalar : Scalar) (h : ⟨name,argumentType scalar⟩ ∈ params) :
    Supplies paths package fields params (.path scalar) (.path name)
  | body (name : String) (type : Code.Ty) (h : ⟨name,.ref none type⟩ ∈ params) :
    Supplies paths package fields params (.body type) (.path name)
  | options (h : ⟨"options",.ref none (.path (package ++ "::Options"))⟩ ∈ params) :
    Supplies paths package fields params .options (.path "options")

theorem Passes.supplies {paths : ModulePaths} {package : String} {fields : List Code.Field}
    {params : List Code.Param} {c : Captured} {wanted : Scalar} {e : Expr} (h : Passes c wanted e)
    (hfield : privateField c.field (ownedType c.scalar) ∈ fields) :
    Supplies paths package fields params (.path wanted) e := by
  cases h with
  | text hs => exact .text c.field (hs ▸ hfield)
  | value hs hne =>
    subst hs
    exact .value c.field c.scalar hne hfield
  | shown hne => exact .shown c.field c.scalar hne hfield

variable (p : Plan) (scope : ModelScope) (paths : ModulePaths) (id : Nat) (op : Operation)

/-- The fields of a node's struct. -/
def nodeFields : List Code.Field :=
  privateField "client" (clientType paths) ::
    (p.captured id).map fun c => privateField c.field (ownedType c.scalar)

theorem nodup_nodeFields : ((nodeFields p paths id).map (·.name)).Nodup := by
  rw [nodeFields, List.map_cons, List.map_map]
  exact nodup_fields p id

variable {p scope paths id op}

theorem supplies_path {a : PathArgument} {owner : Option Nat}
    (h : pathArgument (p.captured id) a owner ∈ arguments p scope paths id op) :
    Supplies paths (callPackage paths op) (nodeFields p paths id)
      (operationMethod p scope paths id op).params (.path a.scalar)
      (pathArgument (p.captured id) a owner).1 := by
  unfold pathArgument at h ⊢
  split at h
  · rename_i e he
    obtain ⟨n,_,hn⟩ := Option.bind_eq_some_iff.mp he
    obtain ⟨c,hc,hargument⟩ := Option.bind_eq_some_iff.mp hn
    refine (passes_of_capturedArgument? hargument).supplies (List.mem_cons_of_mem _ ?_)
    exact List.mem_map_of_mem (List.mem_of_find?_eq_some hc)
  · exact .param a.name a.scalar (mem_params h rfl)

theorem supplies_pathArguments :
    List.Forall₂ (Supplies paths (callPackage paths op) (nodeFields p paths id)
      (operationMethod p scope paths id op).params)
      (op.pathParams.map fun param => .path param.type.scalar)
      ((pathArguments p op (Signature.ofOperation scope paths op) id).map (·.1)) := by
  have hroles : (op.pathParams.map fun param => Role.path param.type.scalar) =
      (Signature.ofOperation scope paths op).path.zipIdx.map fun x => Role.path x.1.scalar := by
    have hscalar := congrArg (List.map Role.path) (Signature.map_scalar_path scope paths op)
    rw [List.map_map, ← List.zipIdx_map_fst 0 (Signature.ofOperation scope paths op).path,
      List.map_map, List.map_map] at hscalar
    exact hscalar.symm
  rw [hroles, pathArguments, List.map_map, List.forall₂_map_left_iff, List.forall₂_map_right_iff,
    List.forall₂_same]
  intro x hx
  refine supplies_path (List.mem_append_left _ (List.mem_append_left _ ?_))
  exact List.mem_map_of_mem hx

theorem supplies_bodyArgument :
    List.Forall₂ (Supplies paths (callPackage paths op) (nodeFields p paths id)
      (operationMethod p scope paths id op).params)
      (op.body.map fun t => .body (scope.type t)).toList
      ((bodyArgument (Signature.ofOperation scope paths op)).map (·.1)) := by
  have hmem : ∀ a ∈ bodyArgument (Signature.ofOperation scope paths op),
      a ∈ arguments p scope paths id op := fun a ha =>
    List.mem_append_left _ (List.mem_append_right _ ha)
  cases hbody : op.body with
  | none => simp [bodyArgument, Signature.ofOperation, hbody]
  | some t =>
    simp only [bodyArgument, Signature.ofOperation, hbody, Option.map_some, Option.toList_some,
      List.map_cons, List.map_nil, List.mem_singleton] at hmem ⊢
    exact .cons (.body _ _ (mem_params (hmem _ rfl) rfl)) .nil

theorem supplies_optionsArgument :
    List.Forall₂ (Supplies paths (callPackage paths op) (nodeFields p paths id)
      (operationMethod p scope paths id op).params)
      (if op.hasQuery then [.options] else [])
      ((optionsArgument (callPackage paths op) op).map (·.1)) := by
  have hmem : ∀ a ∈ optionsArgument (callPackage paths op) op,
      a ∈ arguments p scope paths id op := fun a ha => List.mem_append_right _ ha
  unfold optionsArgument at hmem ⊢
  split
  · rename_i hquery
    rw [if_pos hquery] at hmem
    exact .cons (.options (mem_params (hmem _ (List.mem_singleton_self _)) rfl)) .nil
  · exact .nil

variable (p scope paths id op)

/-- Position by position, the call passes what the function takes. -/
theorem supplies_arguments :
    List.Forall₂ (Supplies paths (callPackage paths op) (nodeFields p paths id)
      (operationMethod p scope paths id op).params) (Role.ofOperation scope op)
      (self "client" :: (arguments p scope paths id op).map (·.1)) := by
  rw [arguments, List.map_append, List.map_append]
  refine .cons (.client List.mem_cons_self) ?_
  exact List.rel_append (List.rel_append supplies_pathArguments supplies_bodyArgument)
    supplies_optionsArgument

end Navigation
end ClientGen.Sdk
