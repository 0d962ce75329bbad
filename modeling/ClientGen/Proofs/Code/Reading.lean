import ClientGen.Proofs.Code.Mentions

/-! # Generated code as it is read

A type is written for a model or for a built-in type, but both are just names. A bare name means a
model wherever the module declares or imports one of this name, whatever it was written for. A name
with arguments never does, since models take none.
-/
namespace ClientGen.Code

/-- The models that the module names without a path: its own and those that it imports. -/
def Module.visible (m : Module) : List String :=
  m.items.filterMap Item.declared? ++ m.imported

/-! ## Types -/

mutual

/-- The type as it is read where the models have these names. A table is written with a name for its
keys, too. -/
def Ty.read (names : List String) : Ty → Ty
  | .path name => if names.contains name then .model none name else .path name
  | .model scope name => .model scope name
  | .option t => .option (t.read names)
  | .vec t => .vec (t.read names)
  | .box t => .box (t.read names)
  | .map t =>
    if names.contains "String" then
      .generic "std::collections::HashMap" [.model none "String",t.read names]
    else .map (t.read names)
  | .ref lifetime t => .ref lifetime (t.read names)
  | .mutableRef t => .mutableRef (t.read names)
  | .into t => .into (t.read names)
  | .generic base args => .generic base (Ty.readAll names args)

def Ty.readAll (names : List String) : List Ty → List Ty
  | [] => []
  | t :: ts => t.read names :: Ty.readAll names ts

end

/-- The model that a value of the type holds in place, itself or as an option: none behind a box, a
list, a table or a reference. -/
def Ty.inPlace? : Ty → Option String
  | .model _ name => some name
  | .option t => t.inPlace?
  | _ => none

/-- A written name is read as the model that has it. -/
theorem Ty.inPlace?_read_path {names : List String} {name n : String} :
    ((Ty.path name).read names).inPlace? = some n ↔ name = n ∧ n ∈ names := by
  by_cases hname : name ∈ names
  · simp only [Ty.read, List.contains_iff_mem, hname, if_true, Ty.inPlace?, Option.some.injEq]
    exact ⟨fun h => ⟨h,h ▸ hname⟩,fun h => h.1⟩
  · simp only [Ty.read, List.contains_iff_mem, hname, if_false, Ty.inPlace?, reduceCtorEq,
      false_iff]
    rintro ⟨rfl,h⟩
    exact hname h

/-! ## Declarations -/

def StructBody.read (names : List String) : StructBody → StructBody
  | .fields fs => .fields (fs.map fun f => { f with type := f.type.read names })
  | .newtype t => .newtype (t.read names)
  | .unit => .unit

def Variant.read (names : List String) (v : Variant) : Variant :=
  { v with payload := v.payload.map (·.read names) }

/-- The types of what an item declares are read. -/
def Item.read (names : List String) : Item → Item
  | .struct s => .struct { s with body := s.body.read names }
  | .enum e => .enum { e with variants := e.variants.map (·.read names) }
  | .alias a => .alias { a with type := a.type.read names }
  | i => i

def Module.read (m : Module) : Module :=
  { m with items := m.items.map (Item.read m.visible) }

def File.read (f : File) : File :=
  { f with module := f.module.read }

theorem Item.declared?_read (names : List String) (i : Item) :
    (i.read names).declared? = i.declared? := by
  cases i <;> rfl

theorem StructBody.types_read (names : List String) (b : StructBody) :
    (b.read names).types = b.types.map (Ty.read names) := by
  cases b <;> simp [StructBody.read, StructBody.types]

theorem Item.types_read (names : List String) {i : Item} {n : String} (h : i.declared? = some n) :
    (i.read names).types = i.types.map (Ty.read names) := by
  cases i with
  | struct s => exact s.body.types_read names
  | enum e =>
    have hpayload (o : Option Ty) :
        (o.map (Ty.read names)).toList = o.toList.map (Ty.read names) := by
      cases o <;> rfl
    simp [Item.read, Item.types, Variant.read, List.flatMap_map, List.map_flatMap, hpayload]
  | «alias» a => rfl
  | _ => cases h

/-! ## Containment -/

/-- As the files are read, the type `a` that one of them declares holds a value of `b` in place. -/
def HoldsInPlace (files : List File) (a b : String) : Prop :=
  ∃ f ∈ files, ∃ i ∈ f.read.module.items, i.declared? = some a ∧
    ∃ t ∈ i.types, t.inPlace? = some b

theorem holdsInPlace_iff {files : List File} {a b : String} : HoldsInPlace files a b ↔
    ∃ f ∈ files, ∃ i ∈ f.module.items, i.declared? = some a ∧
      ∃ t ∈ i.types, (t.read f.module.visible).inPlace? = some b := by
  constructor
  · rintro ⟨f,hf,_,hread,hn,_,hwritten,hb⟩
    obtain ⟨i,hi,rfl⟩ := List.mem_map.mp hread
    rw [Item.declared?_read] at hn
    rw [Item.types_read _ hn] at hwritten
    obtain ⟨t,ht,rfl⟩ := List.mem_map.mp hwritten
    exact ⟨f,hf,i,hi,hn,t,ht,hb⟩
  · rintro ⟨f,hf,i,hi,hn,t,ht,hb⟩
    refine ⟨f,hf,_,List.mem_map_of_mem hi,(Item.declared?_read _ i).trans hn,_,?_,hb⟩
    rw [Item.types_read _ hn]
    exact List.mem_map_of_mem ht

end ClientGen.Code

namespace ClientGen.Sdk.ModelScope
open Code (Ty)

/-! ## Names of built-in types -/

/-- The name without arguments that a type is written with, if not with that of a model. -/
def bareName? (s : ModelScope) : TypeRef → Option String
  | .text => some "String"
  | .int32 => some "i32"
  | .int64 => some "i64"
  | .float32 => some "f32"
  | .float64 => some "f64"
  | .bool => some "bool"
  | .any => some "serde_json::Value"
  | .named name => if s.knows name then none else some "serde_json::Value"
  | .timestamp => none
  | .array _ => none
  | .map _ => none

/-- A type is read as a model in place when it is a reference to the model, or its name is that of a
model. -/
theorem inPlace?_read_type {s : ModelScope} {t : TypeRef} {names : List String} {n : String} :
    ((s.type t).read names).inPlace? = some n ↔
      (t = .named n ∧ s.knows n = true) ∨ (s.bareName? t = some n ∧ n ∈ names) := by
  cases t with
  | named m =>
    by_cases hm : s.knows m = true
    · simp only [ModelScope.type, hm, if_true, Ty.read, Ty.inPlace?, bareName?, Option.some.injEq,
        TypeRef.named.injEq, reduceCtorEq, false_and, or_false]
      exact ⟨fun h => ⟨h,h ▸ hm⟩,fun h => h.1⟩
    · simp only [ModelScope.type, hm, anyValue, Ty.inPlace?_read_path, bareName?,
        TypeRef.named.injEq, Bool.false_eq_true, if_false, Option.some.injEq]
      refine ⟨.inr,fun h => h.resolve_left ?_⟩
      rintro ⟨rfl,hn⟩
      exact hm hn
  | timestamp => simp [ModelScope.type, Ty.read, Ty.inPlace?, bareName?]
  | array t => simp [ModelScope.type, Ty.read, Ty.inPlace?, bareName?]
  | map t =>
    have hnone : ((Ty.map (s.type t)).read names).inPlace? = none := by
      rw [Ty.read]
      split <;> rfl
    simp [ModelScope.type, hnone, bareName?]
  | _ => simp [ModelScope.type, anyValue, Ty.inPlace?_read_path, bareName?]

end ClientGen.Sdk.ModelScope
