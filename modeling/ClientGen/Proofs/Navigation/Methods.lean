import ClientGen.Proofs.Navigation.Items
import ClientGen.Proofs.RouteTree.Lineage
import Mathlib.Data.List.Forall2

/-! # Methods of navigation

Of the functions of a node, those that borrow it and return at once lead onward, one to each child
in turn. Those that wait are calls, one for each operation at the node, and those without a receiver
are constructors, which only the start has.
-/
namespace ClientGen

namespace Code

def Member.function? : Member → Option Function
  | .function f => some f
  | .const _ => none

namespace Impl

def functions (i : Impl) : List Function :=
  i.members.filterMap Member.function?

def constructors (i : Impl) : List Function :=
  i.functions.filter (·.receiver.isNone)

def onward (i : Impl) : List Function :=
  i.functions.filter fun f => f.receiver.isSome && ! f.isAsync

def calls (i : Impl) : List Function :=
  i.functions.filter (·.isAsync)

end Impl

/-- `g` is `f` but for its name. -/
def Function.Renamed (f g : Function) : Prop :=
  ∃ name, g = { f with name }

end Code

namespace Sdk.Navigation
open Code (Function)
variable {p : Plan} {scope : ModelScope} {paths : ModulePaths} {ops : List Operation} {id : Nat}

theorem forall₂_zipWith {α β γ : Type} {f : α → β → γ} {R : α → γ → Prop} {as : List α}
    {bs : List β} (hl : as.length = bs.length) (h : ∀ a b, R a (f a b)) :
    List.Forall₂ R as (as.zipWith f bs) := by
  induction as generalizing bs with
  | nil => exact .nil
  | cons a as ih =>
    cases bs with
    | nil => cases hl
    | cons b bs => exact .cons (h a b) (ih (Nat.succ.inj hl))

/-- A list of what is found for each item, read as made from the items. -/
theorem forall₂_of_filterMap {α β γ : Type} {g : α → Option β} {R : β → γ → Prop} {as : List α}
    {cs : List γ} (hg : ∀ a ∈ as, ∃ b, g a = some b) (h : List.Forall₂ R (as.filterMap g) cs) :
    List.Forall₂ (fun a c => ∃ b, g a = some b ∧ R b c) as cs := by
  induction as generalizing cs with
  | nil =>
    cases h
    exact .nil
  | cons a as ih =>
    obtain ⟨b,hb⟩ := hg a List.mem_cons_self
    rw [List.filterMap_cons_some hb] at h
    cases h with
    | cons hr h => exact .cons ⟨b,hb,hr⟩ (ih (fun a ha => hg a (List.mem_cons_of_mem _ ha)) h)

theorem renamed_distinctlyNamed (used : List String) (fs : List Function) :
    List.Forall₂ Function.Renamed fs (distinctlyNamed used fs) :=
  forall₂_zipWith (by simp) fun _ name => ⟨name,rfl⟩

/-- What is selected by anything but names is selected before and after renaming. -/
theorem renamed_filter {q : Function → Bool} (hq : ∀ f name, q { f with name } = q f)
    (used : List String) (fs : List Function) :
    List.Forall₂ Function.Renamed (fs.filter q) ((distinctlyNamed used fs).filter q) := by
  refine List.rel_filter ?_ (renamed_distinctlyNamed used fs)
  rintro f g ⟨name,rfl⟩
  exact iff_of_eq (congrArg (· = true) (hq f name).symm)

/-- The functions of a node that are yet to be named apart. -/
def unnamed (p : Plan) (scope : ModelScope) (paths : ModulePaths) (ops : List Operation)
    (id : Nat) : List Function :=
  (p.tree.children id).values.map (childMethod p id) ++
    ((p.tree.operationsAt id).filterMap (ops[·]?)).map (operationMethod p scope paths id)

def given (p : Plan) (paths : ModulePaths) (id : Nat) : List Function :=
  if id = p.start then [newMethod paths] else []

theorem functions_nodeImpl : (nodeImpl p scope paths ops id).functions =
    given p paths id ++ distinctlyNamed ((given p paths id).map (·.name))
      (unnamed p scope paths ops id) := by
  show List.filterMap Code.Member.function? (List.map Code.Member.function _) = _
  rw [List.filterMap_map]
  exact List.filterMap_some

theorem filter_given (q : Function → Bool) : (given p paths id).filter q =
    if id = p.start ∧ q (newMethod paths) = true then [newMethod paths] else [] := by
  by_cases hid : id = p.start <;> simp [given, hid, List.filter_singleton]

theorem filter_unnamed {q : Function → Bool} (onward calls : Bool)
    (honward : ∀ child, q (childMethod p id child) = onward)
    (hcalls : ∀ op, q (operationMethod p scope paths id op) = calls) :
    (unnamed p scope paths ops id).filter q =
      (if onward then (p.tree.children id).values.map (childMethod p id) else []) ++
        if calls then
          ((p.tree.operationsAt id).filterMap (ops[·]?)).map (operationMethod p scope paths id)
        else [] := by
  rw [unnamed, List.filter_append, List.filter_map, List.filter_map]
  cases onward <;> cases calls <;> simp [Function.comp_def, honward, hcalls]

theorem constructors_nodeImpl :
    (nodeImpl p scope paths ops id).constructors = given p paths id := by
  have hnone := renamed_filter (q := (·.receiver.isNone)) (fun _ _ => rfl)
    ((given p paths id).map (·.name)) (unnamed p scope paths ops id)
  rw [filter_unnamed false false (fun _ => rfl) (fun _ => rfl)] at hnone
  rw [Code.Impl.constructors, functions_nodeImpl, List.filter_append, filter_given,
    List.forall₂_nil_left_iff.mp hnone, List.append_nil, given]
  exact if_congr (and_iff_left rfl) rfl rfl

/-- The ways onward are those to the children, in order. -/
theorem onward_nodeImpl :
    List.Forall₂ (fun child f => (childMethod p id child).Renamed f) (p.tree.children id).values
      (nodeImpl p scope paths ops id).onward := by
  have honward := renamed_filter (q := fun f => f.receiver.isSome && ! f.isAsync) (fun _ _ => rfl)
    ((given p paths id).map (·.name)) (unnamed p scope paths ops id)
  rw [filter_unnamed true false (fun _ => rfl) (fun _ => rfl),
    if_pos rfl, if_neg Bool.false_ne_true, List.append_nil, List.forall₂_map_left_iff] at honward
  rw [Code.Impl.onward, functions_nodeImpl, List.filter_append, filter_given,
    if_neg fun h => Bool.false_ne_true h.2, List.nil_append]
  exact honward

/-- The calls are those of the operations at the node, in order. -/
theorem calls_nodeImpl (ht : p.tree = .build ops) :
    List.Forall₂ (fun i f => ∃ op, ops[i]? = some op ∧
        (operationMethod p scope paths id op).Renamed f)
      (p.tree.operationsAt id) (nodeImpl p scope paths ops id).calls := by
  have hcalls := renamed_filter (q := (·.isAsync)) (fun _ _ => rfl)
    ((given p paths id).map (·.name)) (unnamed p scope paths ops id)
  rw [filter_unnamed false true (fun _ => rfl) (fun _ => rfl),
    if_pos rfl, if_neg Bool.false_ne_true, List.nil_append, List.forall₂_map_left_iff] at hcalls
  rw [Code.Impl.calls, functions_nodeImpl, List.filter_append, filter_given,
    if_neg fun h => Bool.false_ne_true h.2, List.nil_append]
  refine forall₂_of_filterMap (fun i hi => ?_) hcalls
  rw [ht] at hi
  obtain ⟨_,op,hop,_⟩ := RouteTree.mem_operationsAt.mp hi
  exact ⟨op,hop⟩

end Sdk.Navigation
end ClientGen
