import ClientGen.Warning
import Mathlib.Logic.Basic

/-! # Values of logged results

Warnings never change what is computed: the value of a logged computation is the computation on the
values of its steps. Its warnings are those of the steps, so a kind of warning that no step gives is
not given.
-/
namespace ClientGen.Logged
variable {α β : Type u}

instance : LawfulMonad Logged :=
  LawfulMonad.mk' Logged
    (fun x => by simp [Functor.map])
    (fun x f => by simp [pure, bind])
    (fun x f g => by simp [bind, List.append_assoc])

@[simp] theorem value_pure (x : α) : (pure x : Logged α).value = x := rfl

@[simp] theorem value_bind (m : Logged α) (f : α → Logged β) :
    (m >>= f).value = (f m.value).value := rfl

@[simp] theorem value_map (f : α → β) (m : Logged α) : (f <$> m).value = f m.value := rfl

@[simp] theorem value_mapM (f : α → Logged β) (xs : List α) :
    (xs.mapM f).value = xs.map fun x => (f x).value := by
  induction xs with
  | nil => rfl
  | cons x xs ih => simp [ih]

theorem value_foldlM (f : β → α → Logged β) (b : β) (xs : List α) :
    (xs.foldlM f b).value = xs.foldl (fun b x => (f b x).value) b := by
  induction xs generalizing b with
  | nil => rfl
  | cons x xs ih => simp [ih]

/-! ## Kinds of warnings -/

@[simp] theorem warnings_pure (x : α) : (pure x : Logged α).warnings = [] := rfl

@[simp] theorem warnings_bind (m : Logged α) (f : α → Logged β) :
    (m >>= f).warnings = m.warnings ++ (f m.value).warnings := rfl

@[simp] theorem warnings_map (f : α → β) (m : Logged α) : (f <$> m).warnings = m.warnings := by
  simp [Functor.map]

@[simp] theorem warnings_warn (w : Warning) : (warn w).warnings = [w] := rfl

/-- The warnings of a loop are those of its steps in turn. -/
@[simp] theorem warnings_foldlM (f : α → Logged PUnit) (xs : List α) (start : PUnit) :
    (xs.foldlM (fun _ x => f x) start).warnings = xs.flatMap fun x => (f x).warnings := by
  induction xs generalizing start with
  | nil => rfl
  | cons x xs ih => simp [ih]

/-- All warnings are of one kind. -/
def Only (p : Warning → Prop) (m : Logged α) : Prop :=
  ∀ w ∈ m.warnings, p w

namespace Only
variable {p : Warning → Prop} {m : Logged α} {f : α → Logged β}

theorem pure (x : α) : Only p (pure x : Logged α) :=
  fun _ hw => absurd hw List.not_mem_nil

theorem warn {w : Warning} (h : p w) : Only p (Logged.warn w) := by
  intro v hv
  rwa [List.mem_singleton.mp hv]

theorem bind (hm : Only p m) (hf : ∀ x, Only p (f x)) : Only p (m >>= f) := by
  intro w hw
  rcases List.mem_append.mp hw with hw | hw
  · exact hm w hw
  · exact hf m.value w hw

theorem mapM {xs : List α} (hf : ∀ x, Only p (f x)) : Only p (xs.mapM f) := by
  induction xs with
  | nil => exact .pure _
  | cons x xs ih =>
    rw [List.mapM_cons]
    exact (hf x).bind fun y => ih.bind fun ys => .pure _

theorem foldlM {g : β → α → Logged β} (b : β) {xs : List α} (hg : ∀ b x, Only p (g b x)) :
    Only p (xs.foldlM g b) := by
  induction xs generalizing b with
  | nil => exact .pure _
  | cons x xs ih =>
    rw [List.foldlM_cons]
    exact (hg b x).bind ih

theorem forIn {g : α → β → Logged (ForInStep β)} (b : β) {xs : List α}
    (hg : ∀ x b, Only p (g x b)) : Only p (ForIn.forIn xs b g) := by
  induction xs generalizing b with
  | nil => exact .pure _
  | cons x xs ih =>
    rw [List.forIn_cons]
    refine (hg x b).bind fun step => ?_
    cases step with
    | done b => exact .pure b
    | yield b => exact ih b

end Only
end ClientGen.Logged
