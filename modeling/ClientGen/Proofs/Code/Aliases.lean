import ClientGen.Proofs.Code.Reading
import Mathlib.Logic.Hydra
import Mathlib.Order.WellFoundedSet
import Mathlib.Tactic.Abel

/-! # Expansion of type aliases

An alias is transparent: wherever its name is written, its type may stand instead. Expanding the
aliases of a type comes to an end, whatever the type, exactly when no alias leads back to itself;
lists and tables around the names make no difference.
-/
namespace ClientGen.Code
open Relation (TransGen CutExpand)

/-! ## Finite relations -/

section Finite
variable {α : Type} {r s : α → α → Prop}

theorem wellFounded_of_acyclic {pairs : List (α × α)}
    (h : ∀ a, ¬ TransGen (fun a b => (a,b) ∈ pairs) a a) :
    WellFounded fun b a => (a,b) ∈ pairs := by
  let below := TransGen fun b a => (a,b) ∈ pairs
  have : IsStrictOrder α below :=
    { irrefl := fun a ha => h a (Relation.transGen_swap.mp ha)
      trans := fun _ _ _ => TransGen.trans }
  have hfinite : {a | a ∈ pairs.map Prod.fst ++ pairs.map Prod.snd}.Finite :=
    List.finite_toSet _
  refine Subrelation.wf ?_ (Set.wellFoundedOn_iff.mp (hfinite.wellFoundedOn (r := below)))
  intro b a hab
  exact ⟨.single hab,List.mem_append_right _ (List.mem_map_of_mem hab),
    List.mem_append_left _ (List.mem_map_of_mem hab)⟩

theorem acyclic_of_wellFounded (h : WellFounded fun b a => r a b) (a : α) :
    ¬ TransGen r a a := by
  intro ha
  exact h.transGen.irrefl.irrefl a (Relation.transGen_swap.mp ha)

theorem transGen_of_continues (hs : ∀ a b c, r a b → r b c → s a b) {a b c : α}
    (h : TransGen r a b) (hc : r b c) : TransGen s a b := by
  induction h generalizing c with
  | single hb => exact .single (hs _ _ _ hb hc)
  | tail _ hb ih => exact (ih hb).tail (hs _ _ _ hb hc)

/-- Steps that lead nowhere are on no cycle. -/
theorem transGen_self_iff (hr : ∀ a b, s a b → r a b) (hs : ∀ a b c, r a b → r b c → s a b)
    {a : α} : TransGen r a a ↔ TransGen s a a := by
  constructor
  · intro h
    obtain ⟨c,hc,_⟩ := Relation.TransGen.head'_iff.mp h
    exact transGen_of_continues hs h hc
  · exact Relation.TransGen.mono hr _ _

end Finite

/-! ## Names in types -/

/-- The names of the models anywhere in a type. -/
def Ty.named (t : Ty) : List String :=
  t.models.map Prod.snd

theorem Ty.named_generic (base : String) (args : List Ty) :
    (Ty.generic base args).named = args.flatMap Ty.named := by
  rw [named, models, modelsAll_eq_flatMap, List.map_flatMap]
  rfl

/-- What an alias mentions, each name beside the alias. -/
def Item.aliasMentions : Item → List (String × String)
  | .alias a => a.type.named.map (a.name,·)
  | _ => []

def aliasMentions (files : List File) : List (String × String) :=
  files.flatMap fun f => f.module.items.flatMap Item.aliasMentions

theorem mem_aliasMentions {files : List File} {a b : String} :
    (a,b) ∈ aliasMentions files ↔
      ∃ f ∈ files, ∃ x, Item.alias x ∈ f.module.items ∧ x.name = a ∧ b ∈ x.type.named := by
  simp only [aliasMentions, List.mem_flatMap]
  constructor
  · rintro ⟨f,hf,i,hi,h⟩
    cases i with
    | «alias» x =>
      obtain ⟨n,hn,he⟩ := List.mem_map.mp h
      cases he
      exact ⟨f,hf,x,hi,rfl,hn⟩
    | _ => exact absurd h List.not_mem_nil
  · rintro ⟨f,hf,x,hx,rfl,hb⟩
    exact ⟨f,hf,_,hx,List.mem_map_of_mem hb⟩

theorem mem_aliasMentions_read {files : List File} {a b : String} :
    (a,b) ∈ aliasMentions (files.map File.read) ↔ ∃ f ∈ files, ∃ x,
      Item.alias x ∈ f.module.items ∧ x.name = a ∧ b ∈ (x.type.read f.module.visible).named := by
  rw [mem_aliasMentions]
  constructor
  · rintro ⟨_,hread,x,hx,rfl,hb⟩
    obtain ⟨f,hf,rfl⟩ := List.mem_map.mp hread
    obtain ⟨i,hi,he⟩ := List.mem_map.mp hx
    cases i with
    | «alias» y =>
      cases he
      exact ⟨f,hf,y,hi,rfl,hb⟩
    | _ => cases he
  · rintro ⟨f,hf,x,hx,rfl,hb⟩
    exact ⟨f.read,List.mem_map_of_mem hf,_,List.mem_map_of_mem hx,rfl,hb⟩

/-- Some file declares the name as an alias of the type. -/
def IsAlias (files : List File) (name : String) (t : Ty) : Prop :=
  ∃ f ∈ files, ∃ a, Item.alias a ∈ f.module.items ∧ a.name = name ∧ a.type = t

theorem mem_aliasMentions_iff_isAlias {files : List File} {a b : String} :
    (a,b) ∈ aliasMentions files ↔ ∃ t, IsAlias files a t ∧ b ∈ t.named := by
  rw [mem_aliasMentions]
  constructor
  · rintro ⟨f,hf,x,hx,hname,hb⟩
    exact ⟨x.type,⟨f,hf,x,hx,hname,rfl⟩,hb⟩
  · rintro ⟨_,⟨f,hf,x,hx,hname,rfl⟩,hb⟩
    exact ⟨f,hf,x,hx,hname,hb⟩

/-! ## Expansion -/

/-- One mention of an alias, anywhere in a type, gives way to what the alias stands for. -/
inductive Expands (files : List File) : Ty → Ty → Prop
  | model {scope : Option String} {name : String} {t : Ty} :
    IsAlias files name t → Expands files (.model scope name) t
  | option {t u : Ty} : Expands files t u → Expands files (.option t) (.option u)
  | vec {t u : Ty} : Expands files t u → Expands files (.vec t) (.vec u)
  | box {t u : Ty} : Expands files t u → Expands files (.box t) (.box u)
  | map {t u : Ty} : Expands files t u → Expands files (.map t) (.map u)
  | ref {lifetime : Option String} {t u : Ty} :
    Expands files t u → Expands files (.ref lifetime t) (.ref lifetime u)
  | mutableRef {t u : Ty} : Expands files t u → Expands files (.mutableRef t) (.mutableRef u)
  | into {t u : Ty} : Expands files t u → Expands files (.into t) (.into u)
  | generic {base : String} {before after : List Ty} {t u : Ty} : Expands files t u →
    Expands files (.generic base (before ++ t :: after)) (.generic base (before ++ u :: after))

variable {files : List File}

/-- An expansion takes out one name and puts in those that its alias mentions. -/
theorem Expands.named {t u : Ty} (h : Expands files t u) : ∃ before after name v,
    IsAlias files name v ∧ t.named = before ++ name :: after ∧
      u.named = before ++ v.named ++ after := by
  induction h with
  | model hv => exact ⟨[],[],_,_,hv,rfl,by simp⟩
  | @generic base before after t u _ ih =>
    obtain ⟨l,r,name,v,hv,ht,hu⟩ := ih
    exact ⟨before.flatMap Ty.named ++ l,r ++ after.flatMap Ty.named,name,v,hv,
      by simp [Ty.named_generic, ht],by simp [Ty.named_generic, hu]⟩
  | _ _ ih => exact ih

/-- Names that expansion puts in are below the one that it takes out. -/
theorem Expands.cutExpand {t u : Ty} (h : Expands files t u) :
    CutExpand (fun b a => (a,b) ∈ aliasMentions files) (u.named : Multiset String) t.named := by
  obtain ⟨before,after,name,v,hv,ht,hu⟩ := h.named
  refine ⟨v.named,name,fun b hb => mem_aliasMentions_iff_isAlias.mpr ⟨v,hv,hb⟩,?_⟩
  simp only [ht, hu, ← Multiset.coe_add, ← Multiset.cons_coe, ← Multiset.singleton_add]
  abel

/-- Some expansion of the type leaves the given names in it. -/
def ExpandsInto (files : List File) (names : List String) (t : Ty) : Prop :=
  ∃ u, Expands files t u ∧ names ⊆ u.named

theorem ExpandsInto.within {names : List String} {t : Ty} (h : ExpandsInto files names t)
    {w : Ty → Ty} (hw : ∀ {t u}, Expands files t u → Expands files (w t) (w u))
    (hn : ∀ u, (w u).named = u.named) : ExpandsInto files names (w t) := by
  obtain ⟨u,hu,hsub⟩ := h
  exact ⟨w u,hw hu,(hn u).symm ▸ hsub⟩

/-- Any mention of an alias can be expanded. -/
theorem expandsInto_of_mem {name : String} {v : Ty} (hv : IsAlias files name v) (t : Ty)
    (h : name ∈ t.named) : ExpandsInto files v.named t :=
  match t with
  | .path _ => absurd h List.not_mem_nil
  | .model scope n => by
    obtain rfl := List.mem_singleton.mp h
    exact ⟨v,.model hv,List.Subset.refl _⟩
  | .option t => (expandsInto_of_mem hv t h).within .option fun _ => rfl
  | .vec t => (expandsInto_of_mem hv t h).within .vec fun _ => rfl
  | .box t => (expandsInto_of_mem hv t h).within .box fun _ => rfl
  | .map t => (expandsInto_of_mem hv t h).within .map fun _ => rfl
  | .ref _ t => (expandsInto_of_mem hv t h).within .ref fun _ => rfl
  | .mutableRef t => (expandsInto_of_mem hv t h).within .mutableRef fun _ => rfl
  | .into t => (expandsInto_of_mem hv t h).within .into fun _ => rfl
  | .generic base args => by
    rw [Ty.named_generic] at h
    obtain ⟨t,ht,h⟩ := List.mem_flatMap.mp h
    obtain ⟨u,hu,hsub⟩ := expandsInto_of_mem hv t h
    obtain ⟨before,after,rfl⟩ := List.append_of_mem ht
    refine ⟨_,.generic hu,fun b hb => ?_⟩
    rw [Ty.named_generic]
    exact List.mem_flatMap.mpr ⟨u,by simp,hsub hb⟩

/-- Expanding aliases always ends, whatever the type and the order. -/
def AliasesEnd (files : List File) : Prop :=
  WellFounded fun u t => Expands files t u

theorem aliasesEnd_iff : AliasesEnd files ↔
    ∀ a, ¬ TransGen (fun a b => (a,b) ∈ aliasMentions files) a a := by
  constructor
  · intro h
    have hacc (t : Ty) : ∀ a ∈ t.named, Acc (fun b a => (a,b) ∈ aliasMentions files) a := by
      induction t using h.induction with
      | _ t ih =>
        intro a ha
        refine ⟨_,fun b hb => ?_⟩
        obtain ⟨v,hv,hb⟩ := mem_aliasMentions_iff_isAlias.mp hb
        obtain ⟨u,hu,hsub⟩ := expandsInto_of_mem hv t ha
        exact ih u hu b (hsub hb)
    exact acyclic_of_wellFounded ⟨fun a => hacc (.model none a) a (List.mem_singleton_self a)⟩
  · intro h
    exact Subrelation.wf Expands.cutExpand (InvImage.wf _ (wellFounded_of_acyclic h).cutExpand)

end ClientGen.Code
