import ClientGen.Proofs.Classify.Nodes
import Mathlib.Data.List.TakeWhile
import Mathlib.Logic.Function.Iterate

/-! # Nested arrays

An array has the type of its items inside, so a schema leads from array to items down to a last
node, which is no array or one of unknown items. That node alone has a say in what stands inside all
arrays, and in whether there is a type: a reference there may name none.
-/
namespace ClientGen

/-! ## Layers of a type -/

namespace TypeRef

/-- How many arrays stand around what is innermost. -/
def nesting : TypeRef → Nat
  | array t => t.nesting + 1
  | _ => 0

/-- What stands inside all arrays. -/
def innermost : TypeRef → TypeRef
  | array t => t.innermost
  | t => t

theorem nesting_iterate (n : Nat) (t : TypeRef) : (array^[n] t).nesting = n + t.nesting := by
  induction n with
  | zero => rw [Function.iterate_zero_apply, Nat.zero_add]
  | succ n ih => rw [Function.iterate_succ_apply', nesting, ih, Nat.add_right_comm]

theorem innermost_iterate (n : Nat) (t : TypeRef) : (array^[n] t).innermost = t.innermost := by
  induction n with
  | zero => rw [Function.iterate_zero_apply]
  | succ n ih => rw [Function.iterate_succ_apply', innermost, ih]

end TypeRef

namespace Classify
variable {keep : List String} {s last : Schema} {way : List Schema}

/-! ## References without a name -/

/-- The part of a reference after its last slash is empty or begins with `#`. -/
def Nameless (target : String) : Prop :=
  ∃ part, (target.toList.splitOn '/').getLast? = some part ∧ (part = [] ∨ part.head? = some '#')

theorem getLast?_splitOn (cs : List Char) :
    (cs.splitOn '/').getLast? = some (cs.reverse.takeWhile (· != '/')).reverse := by
  by_cases h : '/' ∈ cs
  -- the last slash is the first one from behind
  · obtain ⟨back,front,hcs,hback⟩ := List.eq_append_cons_of_mem (List.mem_reverse.mpr h)
    have hkept : ∀ c ∈ back, (c != '/') = true :=
      fun c hc => bne_iff_ne.mpr fun he => hback (he ▸ hc)
    have hpart : '/' ∉ back.reverse := fun hc => hback (List.mem_reverse.mp hc)
    have hsplit : cs = front.reverse ++ '/' :: back.reverse := by
      rw [← List.reverse_reverse cs, hcs]
      simp
    rw [hcs, List.takeWhile_append_of_pos hkept, List.takeWhile_cons_of_neg (by simp),
      List.append_nil, hsplit, List.splitOn_append_cons_self, List.splitOn_eq_singleton hpart,
      List.getLast?_concat]
  · have hkept : ∀ c ∈ cs.reverse, (c != '/') = true :=
      fun c hc => bne_iff_ne.mpr fun he => h (he ▸ List.mem_reverse.mp hc)
    rw [List.splitOn_eq_singleton h, List.takeWhile_eq_self_iff.mpr hkept, List.reverse_reverse]
    rfl

theorem nameless_iff {target : String} : Nameless target ↔
    (lastSegment target).isEmpty = true ∨ (lastSegment target).toList.head? = some '#' := by
  have hlast : (target.toList.splitOn '/').getLast? = some (lastSegment target).toList := by
    rw [getLast?_splitOn, lastSegment, String.toList_ofList]
  simp only [Nameless, hlast, Option.some.injEq, exists_eq_left', String.isEmpty_iff,
    String.toList_eq_nil_iff]

theorem refName_of_nameless {target : String} (h : Nameless target) :
    refName keep target = .error (.emptyReference target) := by
  rw [nameless_iff] at h
  simp only [refName, Bool.or_eq_true, beq_iff_eq, if_pos h]
  rfl

theorem refName_of_not_nameless (keep : List String) {target : String} (h : ¬ Nameless target) :
    refName keep target = .ok (typeName keep (lastSegment target)) := by
  rw [nameless_iff] at h
  simp only [refName, Bool.or_eq_true, beq_iff_eq, if_neg h]
  rfl

/-! ## Chains of items -/

/-- A schema leads through arrays, each the items of the one before, to a last node. -/
inductive Leads : Schema → List Schema → Schema → Prop
  | last {s : Schema} : (IsArray s → s.items = none) → Leads s [] s
  | items {s i last : Schema} {way : List Schema} : IsArray s → s.items = some i →
    Leads i way last → Leads s (s :: way) last

theorem exists_leads (s : Schema) : ∃ way last, Leads s way last := by
  induction s using items_induction with
  | last s hnone => exact ⟨_,_,.last fun _ => hnone⟩
  | items s i hi ih =>
    obtain ⟨way,last,h⟩ := ih
    by_cases harray : IsArray s
    · exact ⟨_,_,.items harray hi h⟩
    · exact ⟨_,_,.last fun h => absurd h harray⟩

namespace Leads

theorem unique {way' : List Schema} {last' : Schema} (h : Leads s way last)
    (h' : Leads s way' last') : way' = way ∧ last' = last := by
  induction h generalizing way' with
  | last hlast =>
    cases h' with
    | last => exact ⟨rfl,rfl⟩
    | items harray hi => simp [hlast harray] at hi
  | items harray hi _ ih =>
    cases h' with
    | last hlast => simp [hlast harray] at hi
    | items _ hi' h' =>
      cases hi.symm.trans hi'
      obtain ⟨rfl,hsame⟩ := ih h'
      exact ⟨rfl,hsame⟩

theorem isArray_of_mem (h : Leads s way last) : ∀ x ∈ way, IsArray x := by
  induction h with
  | last => simp
  | items harray _ _ ih => exact List.forall_mem_cons.mpr ⟨harray,ih⟩

theorem items_last (h : Leads s way last) (hlast : IsArray last) : last.items = none := by
  induction h with
  | last hitems => exact hitems hlast
  | items _ _ _ ih => exact ih hlast

/-- Every node on the way is an array. -/
theorem countP_isArray (h : Leads s way last) :
    (way ++ [last]).countP (IsArray ·) = way.length + [last].countP (IsArray ·) := by
  have hway : way.countP (IsArray ·) = way.length :=
    List.countP_eq_length.mpr fun x hx => decide_eq_true (h.isArray_of_mem x hx)
  rw [List.countP_append, hway]

end Leads

/-! ## Types along a chain -/

theorem typeRef_of_items {i : Schema} (h : IsArray s) (hi : s.items = some i) :
    typeRef keep s = (typeRef keep i).map .array := by
  rw [typeRef_eq, hi, nodeType_of_isArray h]
  rfl

theorem typeRef_of_last (h : IsArray s → s.items = none) :
    typeRef keep s = nodeType keep s (.ok .any) := by
  rw [typeRef_eq]
  by_cases harray : IsArray s
  · rw [h harray]
    rfl
  · exact nodeType_congr harray _ _

/-- A schema has the type of the last node, inside as many arrays as lie on the way. -/
theorem Leads.typeRef_eq_map (h : Leads s way last) :
    typeRef keep s = (typeRef keep last).map TypeRef.array^[way.length] := by
  induction h with
  | last => exact (congrFun Except.map_id _).symm
  | @items _ _ last way harray hi _ ih =>
    rw [typeRef_of_items harray hi, ih, List.length_cons]
    cases typeRef keep last with
    | error e => rfl
    | ok t => exact congrArg Except.ok (Function.iterate_succ_apply' _ _ _).symm

/-! ## Types of last nodes -/

/-- No array is left inside all arrays. -/
theorem OwnType.flat {t : TypeRef} (h : OwnType keep s t) : t.nesting = 0 ∧ t.innermost = t := by
  cases h with
  | ref => exact ⟨rfl,rfl⟩
  | title => exact ⟨rfl,rfl⟩
  | declared _ _ h => cases h <;> exact ⟨rfl,rfl⟩

/-- A last node without a nameless reference has a type. -/
theorem exists_typeRef (keep : List String) (hitems : IsArray s → s.items = none)
    (h : ∀ target, s.ref = some target → ¬ Nameless target) :
    ∃ t, typeRef keep s = .ok t ∧ t.nesting = [s].countP (IsArray ·) ∧
      OwnType keep s t.innermost := by
  rw [typeRef_of_last hitems]
  by_cases harray : IsArray s
  · have hany : StandsFor s.primaryType? s.format .any := .any (by simp [harray.2])
    refine ⟨_,nodeType_of_isArray harray _,by simp [harray, TypeRef.nesting],?_⟩
    exact .declared harray.1 (by simp [IsTitled, harray.2]) hany
  · obtain ⟨t,ht,hown⟩ : ∃ t, nodeType keep s (.ok .any) = .ok t ∧ OwnType keep s t := by
      cases hr : s.ref with
      | none => exact exists_nodeType hr harray _
      | some target =>
        have hname := refName_of_not_nameless keep (h target hr)
        refine ⟨_,?_,.ref hr hname⟩
        rw [nodeType_of_ref hr, hname]
        rfl
    obtain ⟨hflat,hself⟩ := hown.flat
    exact ⟨t,ht,by simp [harray, hflat],hself.symm ▸ hown⟩

/-! ## What a last node decides -/

theorem typeRef_of_nameless {target : String} (hr : s.ref = some target) (h : Nameless target) :
    typeRef keep s = .error (.emptyReference target) := by
  rw [typeRef_eq, nodeType_of_ref hr, refName_of_nameless h]
  rfl

theorem typeRef_eq_error_iff (keep : List String) (hitems : IsArray s → s.items = none)
    {e : TypeError} : typeRef keep s = .error e ↔
      ∃ target, s.ref = some target ∧ Nameless target ∧ e = .emptyReference target := by
  by_cases h : ∃ target, s.ref = some target ∧ Nameless target
  · obtain ⟨target,hr,hnameless⟩ := h
    rw [typeRef_of_nameless hr hnameless]
    constructor
    · intro he
      exact ⟨target,hr,hnameless,(Except.error.inj he).symm⟩
    · rintro ⟨_,hr',_,rfl⟩
      cases hr.symm.trans hr'
      rfl
  · obtain ⟨t,ht,_⟩ := exists_typeRef keep hitems
      fun target hr hnameless => h ⟨target,hr,hnameless⟩
    rw [ht]
    constructor
    · intro he
      cases he
    · rintro ⟨target,hr,hnameless,_⟩
      exact absurd ⟨target,hr,hnameless⟩ h

/-- What there is to say about the type of a schema that leads through the arrays on a way. -/
structure DecidedBy (keep : List String) (s : Schema) (way : List Schema) (last : Schema) :
    Prop where
  /-- There is none exactly if the last node has a reference without a name, which the error has. -/
  fails : ∀ e, typeRef keep s = .error e ↔
    ∃ target, last.ref = some target ∧ Nameless target ∧ e = .emptyReference target
  /-- Else there is one with an array for each of the chain, and the last node fills them. -/
  succeeds : (∀ target, last.ref = some target → ¬ Nameless target) →
    ∃ t, typeRef keep s = .ok t ∧ t.nesting = (way ++ [last]).countP (IsArray ·) ∧
      ∀ u, OwnType keep last u ↔ u = t.innermost
  /-- Whatever else the arrays on the way say, the type is the same. -/
  alike : ∀ other way', Leads other way' last → way'.length = way.length →
    typeRef keep other = typeRef keep s

theorem Leads.decidedBy (keep : List String) (h : Leads s way last) :
    DecidedBy keep s way last where
  fails e := by
    rw [← typeRef_eq_error_iff keep h.items_last, h.typeRef_eq_map]
    cases typeRef keep last <;> simp [Except.map]
  succeeds hnamed := by
    obtain ⟨t,ht,hnesting,hown⟩ := exists_typeRef keep h.items_last hnamed
    refine ⟨TypeRef.array^[way.length] t,?_,?_,fun u => ?_⟩
    · rw [h.typeRef_eq_map, ht]
      rfl
    · rw [TypeRef.nesting_iterate, hnesting, h.countP_isArray]
    · rw [TypeRef.innermost_iterate]
      constructor
      · exact hown.unique
      · rintro rfl
        exact hown
  alike other way' h' hlength := by
    rw [h.typeRef_eq_map, h'.typeRef_eq_map, hlength]

/-- Every schema leads to one last node, which decides whether it has a type and what is innermost
there; the arrays on the way are but counted. -/
theorem last_node_decides (keep : List String) (s : Schema) :
    ∃ way last, Leads s way last ∧
      (∀ way' last', Leads s way' last' → way' = way ∧ last' = last) ∧
      DecidedBy keep s way last := by
  obtain ⟨way,last,h⟩ := exists_leads s
  refine ⟨way,last,h,?_,h.decidedBy keep⟩
  intro way' last' h'
  exact h.unique h'

/-- Two arrays around a reference, the outer one with all that could be taken for its type. -/
def crates (note : Option String) (target : String) : Schema :=
  { blank with
    type := some (.one "array"), title := note, format := note
    properties := .ofList [("size",.text "large")], additional := some (.inl true)
    items := some { blank with
      type := some (.several ["null", "array"])
      items := some (reference target) } }
where
  blank : Schema := ⟨none,none,none,none,none,.empty,[],none,none,none,none,none,none⟩
  reference (target : String) : Schema := { blank with ref := some target }

theorem last_node_decides_crates :
    typeRef [] (crates (some "date-time") "#/components/schemas/") =
      .error (.emptyReference "#/components/schemas/") ∧
    typeRef [] (crates (some "date-time") "Pet") = typeRef [] (crates none "Pet") ∧
    ∃ t, typeRef [] (crates none "Pet") = .ok t ∧ t.nesting = 2 ∧ t.innermost = .named "Pet" := by
  have hleads (note : Option String) (target : String) : ∃ way : List Schema, way.length = 2 ∧
      Leads (crates note target) way (crates.reference target) :=
    ⟨_,rfl,.items ⟨rfl,rfl⟩ rfl (.items ⟨rfl,rfl⟩ rfl (.last fun _ => rfl))⟩
  have hdecides (note : Option String) (target : String) : ∃ way : List Schema, way.length = 2 ∧
      Leads (crates note target) way (crates.reference target) ∧
      DecidedBy [] (crates note target) way (crates.reference target) := by
    obtain ⟨way,hlength,h⟩ := hleads note target
    obtain ⟨_,_,_,hunique,hdecided⟩ := last_node_decides [] (crates note target)
    obtain ⟨rfl,rfl⟩ := hunique _ _ h
    exact ⟨way,hlength,h,hdecided⟩
  obtain ⟨_,_,_,hbroken⟩ := hdecides (some "date-time") "#/components/schemas/"
  obtain ⟨_,hlength,h,hdecided⟩ := hdecides none "Pet"
  obtain ⟨_,hnoted,hn,_⟩ := hdecides (some "date-time") "Pet"
  have hnamed : ∀ target, (crates.reference "Pet").ref = some target → ¬ Nameless target := by
    intro target htarget hnameless
    rw [nameless_iff, ← Option.some.inj htarget] at hnameless
    exact absurd hnameless (by decide)
  obtain ⟨t,ht,hnesting,hown⟩ := hdecided.succeeds hnamed
  refine ⟨?_,hdecided.alike _ _ hn (hnoted.trans hlength.symm),t,ht,?_,?_⟩
  · exact (hbroken.fails _).mpr ⟨_,rfl,nameless_iff.mpr (by decide),rfl⟩
  · rw [hnesting, h.countP_isArray, hlength]
    rfl
  · exact ((hown _).mp (.ref rfl rfl)).symm

end Classify
end ClientGen
