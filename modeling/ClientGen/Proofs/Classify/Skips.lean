import ClientGen.Proofs.Classify.Properties

/-! # Schemas left out

Schemas are classified one after the other. One that is left out is named by a warning and leaves
the table of models as it was, so the others become what they would be without it.
-/
namespace ClientGen

/-- The schema that a warning says is left out. -/
def Warning.leftOut? : Warning → Option String
  | .malformedSchema schema => some schema
  | .unclassifiedSchema schema => some schema
  | .unusableSchema schema _ => some schema
  | .takenTypeName schema _ _ => some schema
  | _ => none

def Document.withoutSchema (d : Document) (k : String) : Document :=
  { d with components := d.components.map fun c => { c with schemas := c.schemas.erase k } }

theorem Document.schemas_withoutSchema (d : Document) (k : String) :
    (d.withoutSchema k).schemas = d.schemas.erase k := by
  unfold Document.schemas Document.withoutSchema
  cases d.components <;> rfl

namespace Classify
variable {keep : List String} {k : String} {raw : Json} {table : Dict Model}

/-! ## One schema -/

/-- Why a schema is left out, and which warning says so. A type name can be taken by the schemas
that are `earlier`. -/
inductive LeftOut (keep : List String) (earlier : String → Prop) (k : String) (raw : Json) :
    Warning → Prop
  | malformed : Schema.ofJson? raw = none → LeftOut keep earlier k raw (.malformedSchema k)
  | unclassified {s : Schema} : Schema.ofJson? raw = some s →
    (classify keep k s).value = .ok none → LeftOut keep earlier k raw (.unclassifiedSchema k)
  | unusable {s : Schema} {cause : TypeError} : Schema.ofJson? raw = some s →
    (classify keep k s).value = .error cause → LeftOut keep earlier k raw (.unusableSchema k cause)
  | taken {s : Schema} {m : Model} {first : String} : Schema.ofJson? raw = some s →
    (classify keep k s).value = .ok (some m) → earlier first →
    LeftOut keep earlier k raw (.takenTypeName k (typeName keep k) first)

theorem LeftOut.imp {p q : String → Prop} {w : Warning} (h : LeftOut keep p k raw w)
    (hpq : ∀ first, p first → q first) : LeftOut keep q k raw w := by
  cases h with
  | malformed h => exact .malformed h
  | unclassified h h' => exact .unclassified h h'
  | unusable h h' => exact .unusable h h'
  | taken h h' hfirst => exact .taken h h' (hpq _ hfirst)

theorem LeftOut.leftOut?_eq {earlier : String → Prop} {w : Warning}
    (h : LeftOut keep earlier k raw w) : w.leftOut? = some k := by
  cases h <;> rfl

/-- Classifying a schema by itself does not leave it out. -/
theorem only_classify (s : Schema) :
    (classify keep k s).Only fun w => w.leftOut? = none := by
  refine .bind ?_ fun _ => .pure _
  unfold kindOf
  split
  · refine .bind (fun w hw => ?_) fun _ => .pure _
    simp only [enumValues, List.mem_ite_nil_right, List.mem_singleton] at hw
    rw [hw.2]
    rfl
  split
  · exact .pure _
  split
  · split
    · exact .pure _
    · exact .pure _
    · refine .bind (fun w hw => ?_) fun _ => .pure _
      rw [warnings_record] at hw
      obtain ⟨e,_,he⟩ := List.mem_filterMap.mp hw
      unfold warningOf? at he
      split at he
      · cases he
      · rw [← Option.some.inj he]
        rfl
  split
  · exact .pure _
  · exact .pure _

/-- Every model stands under its name, which is that of its source, one of `sources`. -/
def SourcedIn (keep : List String) (sources : List String) (table : Dict Model) : Prop :=
  ∀ n m, table.get? n = some m →
    m.name = n ∧ typeName keep m.sourceName = n ∧ m.sourceName ∈ sources

/-- The sources of the models that have the type name of `k`. -/
def IsTaker (keep : List String) (table : Dict Model) (k first : String) : Prop :=
  ∃ m, table.get? (typeName keep k) = some m ∧ m.sourceName = first

/-- A schema gives a model with a new name or is left out with a warning. -/
theorem addSchema_cases (keep : List String) (table : Dict Model) (k : String) (raw : Json) :
    (∃ m : Model, m.name = typeName keep k ∧ m.sourceName = k ∧ table.get? m.name = none ∧
      (addSchema keep table k raw).value = table.insert m.name m ∧
      (addSchema keep table k raw).Only fun w => w.leftOut? = none) ∨
    ∃ ws w, (∀ v ∈ ws, v.leftOut? = none) ∧ LeftOut keep (IsTaker keep table k) k raw w ∧
      addSchema keep table k raw = ⟨table,ws ++ [w]⟩ := by
  unfold addSchema
  cases hread : Schema.ofJson? raw with
  | none => exact .inr ⟨[],_,by simp,.malformed hread,rfl⟩
  | some s =>
    have hquiet : (classify keep k s).Only fun w => w.leftOut? = none := only_classify s
    simp only [bind]
    cases hclassify : (classify keep k s).value with
    | error cause =>
      exact .inr ⟨_,_,hquiet,.unusable hread hclassify,rfl⟩
    | ok found =>
      cases found with
      | none => exact .inr ⟨_,_,hquiet,.unclassified hread hclassify,rfl⟩
      | some m =>
        obtain ⟨kind,_,hm⟩ := exists_kind_of_classify hclassify
        have hname : m.name = typeName keep k := by rw [hm]
        cases htaken : table.get? (typeName keep k) with
        | some first =>
          refine .inr ⟨_,_,hquiet,.taken hread hclassify ⟨first,htaken,rfl⟩,?_⟩
          simp only [hname, htaken]
          rfl
        | none =>
          refine .inl ⟨m,hname,by rw [hm],hname ▸ htaken,?_,?_⟩
          · simp only [hname, htaken]
            rfl
          · simp only [hname, htaken]
            exact hquiet.bind fun _ => .pure _

/-! ## One schema after the other -/

def addAll (keep : List String) (table : Dict Model) (schemas : List (String × Json)) :
    Logged (Dict Model) :=
  schemas.foldlM (fun table s => addSchema keep table s.1 s.2) table

theorem addAll_cons (e : String × Json) (rest : List (String × Json)) :
    addAll keep table (e :: rest) =
      addSchema keep table e.1 e.2 >>= fun table => addAll keep table rest :=
  List.foldlM_cons

theorem addAll_append (schemas later : List (String × Json)) :
    addAll keep table (schemas ++ later) =
      addAll keep table schemas >>= fun table => addAll keep table later :=
  List.foldlM_append

theorem SourcedIn.addSchema {sources : List String} (h : SourcedIn keep sources table)
    (k : String) (raw : Json) :
    SourcedIn keep (sources ++ [k]) (addSchema keep table k raw).value := by
  have hbefore : SourcedIn keep (sources ++ [k]) table := by
    intro n m hm
    obtain ⟨hname,hsource,hmem⟩ := h n m hm
    exact ⟨hname,hsource,List.mem_append_left _ hmem⟩
  rcases addSchema_cases keep table k raw with ⟨new,hname,hsource,_,hvalue,_⟩ | ⟨ws,w,_,_,he⟩
  · rw [hvalue]
    intro n m hm
    rw [Dict.get?_insert] at hm
    split at hm
    · rename_i hn
      obtain rfl := Option.some.inj hm
      refine ⟨hn.symm,?_,?_⟩
      · rw [hsource, ← hname, hn]
      · rw [hsource]
        exact List.mem_append_right _ List.mem_cons_self
    · exact hbefore n m hm
  · rw [he]
    exact hbefore

theorem SourcedIn.addAll {sources : List String} (h : SourcedIn keep sources table)
    (schemas : List (String × Json)) :
    SourcedIn keep (sources ++ schemas.map (·.1)) (addAll keep table schemas).value := by
  induction schemas generalizing table sources with
  | nil => simpa [Classify.addAll] using h
  | cons e rest ih =>
    have hrest := ih (h.addSchema e.1 e.2)
    rw [List.append_assoc] at hrest
    rw [addAll_cons]
    exact hrest

/-- A model stays once it is there. -/
theorem get?_addSchema {n : String} {m : Model} (hm : table.get? n = some m) :
    (addSchema keep table k raw).value.get? n = some m := by
  rcases addSchema_cases keep table k raw with ⟨new,_,_,hfree,hvalue,_⟩ | ⟨ws,w,_,_,he⟩
  · rw [hvalue, Dict.get?_insert, if_neg, hm]
    rintro rfl
    rw [hfree] at hm
    cases hm
  · rw [he]
    exact hm

theorem get?_addAll {n : String} {m : Model} (hm : table.get? n = some m)
    (schemas : List (String × Json)) : (addAll keep table schemas).value.get? n = some m := by
  induction schemas generalizing table with
  | nil => exact hm
  | cons e rest ih =>
    rw [addAll_cons]
    exact ih (get?_addSchema hm)

/-- Only schemas that are added are said to be left out. -/
theorem mem_of_leftOut?_addAll {schemas : List (String × Json)} {w : Warning}
    (hw : w ∈ (addAll keep table schemas).warnings) (hk : w.leftOut? = some k) :
    k ∈ schemas.map (·.1) := by
  induction schemas generalizing table with
  | nil => cases hw
  | cons e rest ih =>
    rw [addAll_cons, Logged.warnings_bind] at hw
    rcases List.mem_append.mp hw with hw | hw
    · refine List.mem_cons.mpr (.inl ?_)
      rcases addSchema_cases keep table e.1 e.2 with
        ⟨_,_,_,_,_,hquiet⟩ | ⟨ws,v,hquiet,hleft,he⟩
      · cases hk.symm.trans (hquiet w hw)
      · rw [he] at hw
        rcases List.mem_append.mp hw with hw | hw
        · cases hk.symm.trans (hquiet w hw)
        · rw [List.mem_singleton.mp hw, hleft.leftOut?_eq] at hk
          exact (Option.some.inj hk).symm
    · exact List.mem_cons_of_mem _ (ih hw)

/-! ## The models of a document -/

theorem value_models (keep : List String) (d : Document) : (models keep d).value =
    linkUnions (addAll keep .empty d.schemas.entries).value.values := rfl

theorem warnings_models (keep : List String) (d : Document) :
    (models keep d).warnings = (addAll keep .empty d.schemas.entries).warnings :=
  List.append_nil _

theorem sourcedIn_addAll (keep : List String) (schemas : List (String × Json)) :
    SourcedIn keep (schemas.map (·.1)) (addAll keep .empty schemas).value := by
  have hempty : SourcedIn keep [] .empty := by
    intro n m hm
    cases hm
  exact hempty.addAll schemas

/-- The models made from a schema: the one under its type name, if that is not from another. -/
theorem SourcedIn.filter_values {sources : List String} (h : SourcedIn keep sources table)
    (k : String) : table.values.filter (fun m => m.sourceName == k) =
      ((table.get? (typeName keep k)).filter fun m => m.sourceName == k).toList := by
  have hentries : table.entries.filter (fun e => e.2.sourceName == k) =
      (table.entries.filter fun e => e.1 == typeName keep k).filter fun e =>
        e.2.sourceName == k := by
    rw [List.filter_filter]
    refine List.filter_congr fun e he => ?_
    obtain ⟨_,hname,_⟩ := h e.1 e.2 (Dict.get?_eq_some_iff.mpr he)
    by_cases hk : e.2.sourceName = k
    · simp [← hname, hk]
    · simp [hk]
  rw [Dict.values, List.filter_map, Function.comp_def, hentries, Dict.filter_key_eq]
  cases table.get? (typeName keep k) with
  | none => rfl
  | some m => by_cases hk : m.sourceName = k <;> simp [hk, Option.filter]

/-- Links do not change how many models come from a schema. -/
theorem length_filter_linkUnions (models : List Model) (k : String) :
    ((linkUnions models).filter fun m => m.sourceName == k).length =
      (models.filter fun m => m.sourceName == k).length := by
  have hsources : (linkUnions models).map (·.sourceName) = models.map (·.sourceName) :=
    map_linkUnions fun _ _ => rfl
  have hcount (ms : List Model) : (ms.filter fun m => m.sourceName == k).length =
      (ms.map (·.sourceName)).countP (· == k) := by
    rw [List.countP_map, ← List.countP_eq_length_filter]
    rfl
  rw [hcount, hcount, hsources]

theorem exists_mem_linkUnions {n : String} {m : Model} (hm : table.get? n = some m) :
    ∃ v ∈ linkUnions table.values, v.sourceName = m.sourceName := by
  have hsources : (linkUnions table.values).map (·.sourceName) =
      table.values.map (·.sourceName) := map_linkUnions fun _ _ => rfl
  have hmem : m.sourceName ∈ table.values.map (·.sourceName) :=
    List.mem_map_of_mem (Dict.mem_values_iff.mpr ⟨n,hm⟩)
  rw [← hsources] at hmem
  exact List.mem_map.mp hmem

theorem leftOut?_ne_of_mem_addAll {schemas : List (String × Json)} (hne : ∀ e ∈ schemas, e.1 ≠ k) :
    ∀ w ∈ (addAll keep table schemas).warnings, ¬ (w.leftOut? == some k) = true := by
  intro w hw hk
  obtain ⟨e,he,hek⟩ := List.mem_map.mp (mem_of_leftOut?_addAll hw (beq_iff_eq.mp hk))
  exact hne e he hek

/-- The models of a document are made of a table from smaller keys, the schema of `k`, and the
schemas that come after it. -/
structure Stage (keep : List String) (d : Document) (k : String) (raw : Json) (first : Dict Model)
    (after : List (String × Json)) : Prop where
  earlier : ∃ sources, SourcedIn keep sources first ∧ ∀ source ∈ sources, source < k
  later : ∀ e ∈ after, k < e.1
  models : (Classify.models keep d).value =
    linkUnions (addAll keep (addSchema keep first k raw).value after).value.values
  warnings : ((Classify.models keep d).warnings.filter fun w => w.leftOut? == some k) =
    (addSchema keep first k raw).warnings.filter fun w => w.leftOut? == some k
  without : (Classify.models keep (d.withoutSchema k)).value =
    linkUnions (addAll keep first after).value.values

theorem exists_stage (keep : List String) {d : Document} (hraw : d.schemas.get? k = some raw) :
    ∃ first after, Stage keep d k raw first after := by
  obtain ⟨before,after,hsplit,herased,hbefore,hafter⟩ := Dict.exists_split hraw
  have hwhole : addAll keep .empty d.schemas.entries = addAll keep .empty before >>= fun first =>
      addSchema keep first k raw >>= fun table => addAll keep table after := by
    rw [hsplit, addAll_append]
    rfl
  refine ⟨_,after,⟨_,sourcedIn_addAll keep before,?_⟩,hafter,?_,?_,?_⟩
  · intro source hsource
    obtain ⟨e,he,rfl⟩ := List.mem_map.mp hsource
    exact hbefore e he
  · rw [value_models, hwhole]
    rfl
  · have hne : ∀ e ∈ before, e.1 ≠ k := fun e he => String.ne_of_lt (hbefore e he)
    have hne' : ∀ e ∈ after, e.1 ≠ k := fun e he => (String.ne_of_lt (hafter e he)).symm
    rw [warnings_models, hwhole, Logged.warnings_bind, Logged.warnings_bind, List.filter_append,
      List.filter_append, List.filter_eq_nil_iff.mpr (leftOut?_ne_of_mem_addAll hne),
      List.filter_eq_nil_iff.mpr (leftOut?_ne_of_mem_addAll hne'), List.nil_append,
      List.append_nil]
  · rw [value_models, Document.schemas_withoutSchema, herased, addAll_append]
    rfl

/-- Another schema with a smaller key has the type name of `k` and is the source of a model. -/
def IsEarlier (keep : List String) (d : Document) (k first : String) : Prop :=
  first < k ∧ typeName keep first = typeName keep k ∧
    ∃ m ∈ (models keep d).value, m.sourceName = first

/-- A schema is the source of one model, or of none and is left out with one warning. -/
def ModelOrWarning (keep : List String) (d : Document) (k : String) (raw : Json) : Prop :=
  let sourced := (models keep d).value.filter fun m => m.sourceName == k
  let warnings := (models keep d).warnings.filter fun w => w.leftOut? == some k
  (∃ m, sourced = [m] ∧ warnings = []) ∨
    sourced = [] ∧ ∃ w, warnings = [w] ∧ LeftOut keep (IsEarlier keep d k) k raw w

namespace Stage
variable {d : Document} {first : Dict Model} {after : List (String × Json)}

/-- The model that a schema adds is the only one from this schema. -/
theorem exists_one (h : Stage keep d k raw first after) {m : Model}
    (hname : m.name = typeName keep k) (hsource : m.sourceName = k)
    (hinsert : (addSchema keep first k raw).value = first.insert m.name m) :
    ∃ v, ((Classify.models keep d).value.filter fun m => m.sourceName == k) = [v] := by
  obtain ⟨sources,hsourced,_⟩ := h.earlier
  have hkept : (addAll keep (addSchema keep first k raw).value after).value.get?
      (typeName keep k) = some m := by
    refine get?_addAll ?_ after
    rw [hinsert, Dict.get?_insert, if_pos hname.symm]
  have hsourcedAll := (hsourced.addSchema k raw).addAll after
  refine List.length_eq_one_iff.mp ?_
  rw [h.models, length_filter_linkUnions, hsourcedAll.filter_values, hkept, Option.filter,
    if_pos (beq_iff_eq.mpr hsource)]
  rfl

/-- No other schema gives a model with the source `k`. -/
theorem filter_eq_nil (h : Stage keep d k raw first after) :
    ((linkUnions (addAll keep first after).value.values).filter fun m => m.sourceName == k) =
      [] := by
  obtain ⟨sources,hsourced,hless⟩ := h.earlier
  have hsourcedAll := hsourced.addAll after
  have hother : ((addAll keep first after).value.get? (typeName keep k)).filter
      (fun m => m.sourceName == k) = none := by
    refine Option.filter_eq_none_iff.mpr fun m hm hk => ?_
    obtain ⟨_,_,hmem⟩ := hsourcedAll _ m hm
    rw [beq_iff_eq.mp hk] at hmem
    rcases List.mem_append.mp hmem with hmem | hmem
    · exact String.lt_irrefl k (hless k hmem)
    · obtain ⟨e,he,hek⟩ := List.mem_map.mp hmem
      exact String.lt_irrefl k (hek ▸ h.later e he)
  apply List.length_eq_zero_iff.mp
  rw [length_filter_linkUnions, hsourcedAll.filter_values, hother]
  rfl

/-- Who has taken a type name before is still there in the end. -/
theorem isEarlier (h : Stage keep d k raw first after)
    (hkept : (addSchema keep first k raw).value = first) {source : String}
    (hsource : IsTaker keep first k source) : IsEarlier keep d k source := by
  obtain ⟨sources,hsourced,hless⟩ := h.earlier
  obtain ⟨m,hm,rfl⟩ := hsource
  obtain ⟨_,htype,hmem⟩ := hsourced _ _ hm
  refine ⟨hless _ hmem,htype,?_⟩
  rw [h.models, hkept]
  exact exists_mem_linkUnions (get?_addAll hm after)

end Stage

theorem modelOrWarning_models (keep : List String) {d : Document}
    (hraw : d.schemas.get? k = some raw) : ModelOrWarning keep d k raw := by
  obtain ⟨first,after,hstage⟩ := exists_stage keep hraw
  unfold ModelOrWarning
  rw [hstage.warnings]
  rcases addSchema_cases keep first k raw with
    ⟨m,hname,hsource,_,hinsert,hquiet⟩ | ⟨ws,w,hquiet,hleft,hskip⟩
  · obtain ⟨v,hv⟩ := hstage.exists_one hname hsource hinsert
    refine .inl ⟨v,hv,?_⟩
    exact List.filter_eq_nil_iff.mpr fun w hw => by simp [hquiet w hw]
  · have hkept : (addSchema keep first k raw).value = first := by rw [hskip]
    have hnone : ws.filter (fun v => v.leftOut? == some k) = [] :=
      List.filter_eq_nil_iff.mpr fun v hv => by simp [hquiet v hv]
    refine .inr ⟨?_,w,?_,hleft.imp fun _ => hstage.isEarlier hkept⟩
    · rw [hstage.models, hkept]
      exact hstage.filter_eq_nil
    · rw [hskip, List.filter_append, hnone]
      simp [hleft.leftOut?_eq]

/-- A schema that no model is made from can be taken away. -/
theorem models_withoutSchema (keep : List String) {d : Document}
    (h : ∀ m ∈ (models keep d).value, m.sourceName ≠ k) :
    (models keep (d.withoutSchema k)).value = (models keep d).value := by
  cases hraw : d.schemas.get? k with
  | none =>
    rw [value_models, value_models, Document.schemas_withoutSchema, Dict.erase_eq_self hraw]
  | some raw =>
    obtain ⟨first,after,hstage⟩ := exists_stage keep hraw
    rcases addSchema_cases keep first k raw with
      ⟨m,hname,hsource,_,hinsert,_⟩ | ⟨ws,w,_,_,hskip⟩
    · obtain ⟨v,hv⟩ := hstage.exists_one hname hsource hinsert
      have hmem : v ∈ (models keep d).value.filter fun m => m.sourceName == k :=
        hv ▸ List.mem_cons_self
      obtain ⟨hmodel,hfrom⟩ := List.mem_filter.mp hmem
      exact absurd (beq_iff_eq.mp hfrom) (h v hmodel)
    · rw [hstage.without, hstage.models, hskip]

/-- What is left out of a document, be it a schema or a property, affects nothing else. -/
theorem left_out_apart (keep : List String) (d : Document) :
    ((models keep d).value.Pairwise fun a b => a.name < b.name) ∧
    (∀ k raw, d.schemas.get? k = some raw → ModelOrWarning keep d k raw) ∧
    (∀ k, (∀ m ∈ (models keep d).value, m.sourceName ≠ k) →
      (models keep (d.withoutSchema k)).value = (models keep d).value) ∧
    ∀ name s m r, (classify keep name s).value = .ok (some m) → m.kind = .record r →
      PropertiesApart keep name s m r := by
  refine ⟨increasing_models keep d,?_,?_,?_⟩
  · intro k raw hraw
    exact modelOrWarning_models keep hraw
  · intro k hk
    exact models_withoutSchema keep hk
  · intro name s m r hclassified hrecord
    exact propertiesApart_of_classify hclassified hrecord

/-- Two schemas with one type name, and one that is no schema. -/
def shelter : Document where
  paths := .empty
  components := some ⟨.ofList [
    ("Pet-Owner",.object [("type",.text "object"),("properties",.object [
      ("name",.object [("type",.text "string")]),("note",.text "soon")])]),
    ("PetOwner",.object [("type",.text "object")]),
    ("broken",.text "later")],.empty,.empty⟩

theorem left_out_apart_shelter :
    (models [] (shelter.withoutSchema "PetOwner")).value = (models [] shelter).value ∧
    ModelOrWarning [] shelter "broken" (.text "later") ∧
    ∃ s m r, Schema.ofJson? (.object [("type",.text "object"),("properties",.object [
        ("name",.object [("type",.text "string")]),("note",.text "soon")])]) = some s ∧
      PropertiesApart [] "Pet-Owner" s m r ∧ r.fields.map (·.name) = ["name"] := by
  obtain ⟨_,hwarned,hremovable,hproperties⟩ := left_out_apart [] shelter
  refine ⟨hremovable "PetOwner" (by decide +kernel),hwarned _ _ rfl,?_⟩
  exact ⟨_,_,_,rfl,hproperties _ _ _ _ rfl rfl,rfl⟩

end Classify
end ClientGen
