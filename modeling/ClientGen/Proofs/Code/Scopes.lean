import ClientGen.Code
import ClientGen.Proofs.Ident.TypeNames

/-! # Scopes of generated code

The names that stand beside each other: fields of a struct, variants of an enum, members of an
implementation, parameters of a function. `r#x` and `x` are one identifier, so names of one scope
have to differ without the mark of the raw form.
-/
namespace ClientGen

namespace Ident

/-- The names differ from each other even without the mark of the raw form. -/
def Apart (names : List String) : Prop :=
  (names.map unraw).Nodup

instance (names : List String) : Decidable (Apart names) :=
  inferInstanceAs (Decidable (names.map unraw).Nodup)

/-- The names differ from each other, and also without the mark of the raw form unless one of the
two is kept in it. -/
def ApartBut (kept : String → Prop) (names : List String) : Prop :=
  names.Nodup ∧ ∀ a ∈ names, ∀ b ∈ names, unraw a = unraw b → a = b ∨ kept a ∨ kept b

variable {names : List String} {kept : String → Prop}

theorem Apart.apartBut (h : Apart names) : ApartBut kept names := by
  refine ⟨h.of_map,?_⟩
  intro a ha b hb hab
  exact .inl (List.inj_on_of_nodup_map h ha hb hab)

theorem apartBut_of_isRaw (hn : names.Nodup) (h : ∀ n ∈ names, IsRaw n → kept n) :
    ApartBut kept names := by
  refine ⟨hn,?_⟩
  intro a ha b hb hab
  by_cases hrawa : IsRaw a
  · exact .inr (.inl (h a ha hrawa))
  · by_cases hrawb : IsRaw b
    · exact .inr (.inr (h b hb hrawb))
    · rw [unraw_of_not_isRaw hrawa, unraw_of_not_isRaw hrawb] at hab
      exact .inl hab

theorem apart_of_escaped (hn : names.Nodup) (h : ∀ n ∈ names, Escaped n) : Apart names := by
  refine hn.map_on ?_
  intro a ha b hb hab
  exact (h a ha).eq_of_unraw_eq (h b hb) hab

theorem apart_of_not_isRaw (hn : names.Nodup) (h : ∀ n ∈ names, ¬ IsRaw n) : Apart names := by
  have hsame : names.map unraw = names.map id := by
    apply List.map_congr_left
    intro n hn
    exact unraw_of_not_isRaw (h n hn)
  rwa [Apart, hsame, List.map_id]

/-- The names of bindings stay apart in every scope that hands them out. -/
theorem apart_reserveAll {α : Type} (used : List String) (xs : List α) (f : α → String) :
    Apart (reserveAll reserve used (xs.map fun x => bindingName (f x))) := by
  apply apart_of_escaped (reserve_fresh.nodup_reserveAll _ _)
  intro n hn
  refine escaped_of_mem_reserveAll ?_ hn
  intro base hbase
  obtain ⟨x,_,rfl⟩ := List.mem_map.mp hbase
  exact escaped_bindingName (f x)

theorem apart_reserveType {used bases : List String} (h : ∀ base ∈ bases, ¬ IsRaw base) :
    Apart (reserveAll reserveType used bases) := by
  apply apart_of_not_isRaw (reserveType_fresh.nodup_reserveAll _ _)
  intro n hn
  exact of_mem_reserveAll (fun _ used hbase => not_isRaw_reserveType hbase used) h hn

end Ident

namespace Code
open Ident (Apart)

def Struct.fieldNames (s : Struct) : List String :=
  match s.body with
  | .fields fs => fs.map (·.name)
  | _ => []

def Enum.variantNames (e : Enum) : List String :=
  e.variants.map (·.name)

def Member.name : Member → String
  | .const c => c.name
  | .function f => f.name

def Function.paramNames (f : Function) : List String :=
  f.params.map (·.name)

/-- No parameter of the member, if it has any, has the name of another. -/
def Member.ParamsApart : Member → Prop
  | .const _ => True
  | .function f => Apart f.paramNames

/-- The members of an implementation do not share names, nor the parameters of one of them. -/
structure Impl.ScopesApart (i : Impl) : Prop where
  members : Apart (i.members.map Member.name)
  params : ∀ m ∈ i.members, m.ParamsApart

/-- No scope of the item has a name twice. An enum may keep some variants in the raw form. -/
def Item.ScopesApart (kept : String → String → Prop) : Item → Prop
  | .struct s => Apart s.fieldNames
  | .enum e => Ident.ApartBut (kept e.name) e.variantNames
  | .impl i => i.ScopesApart
  | .function f => Apart f.paramNames
  | _ => True

/-- A function under another name keeps its parameters. -/
theorem Member.ParamsApart.renamed {f : Function} (h : Apart f.paramNames) (name : String) :
    (Member.function { f with name }).ParamsApart := h

/-- A single function is apart in its implementation. -/
theorem Impl.scopesApart_singleton {i : Impl} {f : Function} (hi : i.members = [.function f])
    (hf : Apart f.paramNames) : i.ScopesApart := by
  refine ⟨?_,?_⟩
  · rw [hi]
    exact List.nodup_singleton _
  · rw [hi]
    intro m hm
    rw [List.mem_singleton.mp hm]
    exact hf

end Code
end ClientGen
