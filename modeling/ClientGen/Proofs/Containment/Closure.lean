import ClientGen.Proofs.Containment.Search
import ClientGen.Proofs.Data.Dict

/-! # The closure of containment

The visit of the models inside a model is a search, so it misses none and finds no other. A part is
stored out of line exactly when some way leads from it back to its owner.
-/
namespace ClientGen.Containment
variable {models : List Model}

/-! ## Inline parts -/

theorem mem_heldBy {a b : String} : b ∈ heldBy models a ↔
    (∃ m ∈ models, m.name = a ∧ .named b ∈ m.kind.parts) ∧ b ∈ names models := by
  have hd (t : TypeRef) : t.directName? = some b ↔ t = .named b := by
    cases t <;> simp [TypeRef.directName?]
  simp only [heldBy, List.mem_filter, List.mem_flatMap, List.mem_filterMap, beq_iff_eq,
    List.contains_iff_mem, hd, exists_eq_right, and_assoc]

theorem heldBy_subset_names (models : List Model) (a : String) :
    ∀ b ∈ heldBy models a, b ∈ names models :=
  fun _ hb => (mem_heldBy.mp hb).2

/-- A part stored inline in a model of the first name names the second, which a model has. -/
inductive InlineEdge (models : List Model) (a b : String) : Prop
  | field {m : Model} {r : Record} {f : Field} (hm : m ∈ models) (ha : m.name = a)
    (hk : m.kind = .record r) (hf : f ∈ r.fields) (ht : f.type = .named b) (hb : b ∈ names models)
  | member {m : Model} {members : List TypeRef} (hm : m ∈ models) (ha : m.name = a)
    (hk : m.kind = .union members) (ht : .named b ∈ members) (hb : b ∈ names models)
  | target {m : Model} (hm : m ∈ models) (ha : m.name = a) (hk : m.kind = .alias (.named b))
    (hb : b ∈ names models)

theorem inlineEdge_iff {a b : String} : InlineEdge models a b ↔ b ∈ heldBy models a := by
  rw [mem_heldBy]
  constructor
  · rintro (⟨hm,ha,hk,hf,ht,hb⟩ | ⟨hm,ha,hk,ht,hb⟩ | ⟨hm,ha,hk,hb⟩)
    · exact ⟨⟨_,hm,ha,by simpa [hk, ModelKind.parts] using ⟨_,hf,ht⟩⟩,hb⟩
    · exact ⟨⟨_,hm,ha,by simpa [hk, ModelKind.parts] using ht⟩,hb⟩
    · exact ⟨⟨_,hm,ha,by simp [hk, ModelKind.parts]⟩,hb⟩
  · rintro ⟨⟨m,hm,ha,hp⟩,hb⟩
    cases hk : m.kind with
    | record r =>
      obtain ⟨f,hf,ht⟩ : ∃ f ∈ r.fields, f.type = .named b := by
        simpa [hk, ModelKind.parts] using hp
      exact .field hm ha hk hf ht hb
    | union members => exact .member hm ha hk (by simpa [hk, ModelKind.parts] using hp) hb
    | «alias» target =>
      have ht : TypeRef.named b = target := by simpa [hk, ModelKind.parts] using hp
      exact .target hm ha (ht ▸ hk) hb
    | enum values => simp [hk, ModelKind.parts] at hp
    | map value => simp [hk, ModelKind.parts] at hp

theorem InlineEdge.source_mem {a b : String} (h : InlineEdge models a b) : a ∈ names models := by
  obtain ⟨⟨m,hm,ha,_⟩,_⟩ := mem_heldBy.mp (inlineEdge_iff.mp h)
  exact ha ▸ List.mem_map_of_mem hm

/-- The edges are those that the search goes along. -/
theorem inlineEdge_eq (models : List Model) : InlineEdge models = fun a b => b ∈ heldBy models a :=
  funext fun _ => funext fun _ => propext inlineEdge_iff

/-! ## Ways between models -/

theorem turns_visit_heldBy (models : List Model) (a : String) :
    ∃ k, Turns (heldBy models) k ⟨[],heldBy models a⟩ ⟨reachable models a,[]⟩ :=
  turns_visit (fun b _ => heldBy_subset_names models b) (heldBy_subset_names models a)

theorem mem_reachable_iff {a b : String} :
    b ∈ reachable models a ↔ Relation.TransGen (InlineEdge models) a b := by
  obtain ⟨k,hturns⟩ := turns_visit_heldBy models a
  rw [inlineEdge_eq]
  exact hturns.mem_seen_iff

theorem get?_held {a : String} (ha : a ∈ names models) :
    (ofModels models).held.get? a = some (reachable models a) := by
  have hm : (a,reachable models a) ∈ (names models).map fun n => (n,reachable models n) :=
    List.mem_map.mpr ⟨a,ha,rfl⟩
  refine Dict.get?_ofList_of_mem hm ?_
  intro w hw
  obtain ⟨n,_,he⟩ := List.mem_map.mp hw
  cases he
  rfl

theorem transGen_of_mem_held {a b : String} (h : b ∈ ((ofModels models).held.get? a).getD []) :
    Relation.TransGen (InlineEdge models) a b := by
  cases hheld : (ofModels models).held.get? a with
  | none =>
    rw [hheld] at h
    cases h
  | some held =>
    obtain ⟨n,_,he⟩ := List.mem_map.mp (Dict.mem_of_get?_ofList hheld)
    cases he
    rw [hheld] at h
    exact mem_reachable_iff.mp h

/-- A part leads back to its owner exactly if it names the owner or a model from which a way leads
there. -/
theorem cyclesBack_iff {part : TypeRef} {owner : String} :
    (ofModels models).cyclesBack part owner = true ↔
      ∃ n, part = .named n ∧ Relation.ReflTransGen (InlineEdge models) n owner := by
  constructor
  · intro h
    unfold cyclesBack at h
    split at h
    · cases h
    · rename_i n hn
      refine ⟨n,?_,?_⟩
      · cases part <;> simp_all [TypeRef.directName?]
      · rcases Bool.or_eq_true_iff.mp h with h | h
        · exact beq_iff_eq.mp h ▸ .refl
        · exact (transGen_of_mem_held (List.contains_iff_mem.mp h)).to_reflTransGen
  · rintro ⟨n,rfl,h⟩
    rcases Relation.reflTransGen_iff_eq_or_transGen.mp h with rfl | hway
    · simp [cyclesBack, TypeRef.directName?]
    · obtain ⟨b,hb,_⟩ := Relation.TransGen.head'_iff.mp hway
      simp [cyclesBack, TypeRef.directName?, get?_held hb.source_mem, mem_reachable_iff.mpr hway]

/-- The search for what is inside a model ends, whatever name each turn takes, with the models that
a chain of inline parts leads to. -/
structure SearchEnds (models : List Model) (start : String) : Prop where
  bounded {k : Nat} {s : Search} (h : Turns (heldBy models) k ⟨[],heldBy models start⟩ s) :
    k ≤ (heldBy models start).length + ((names models).map fun n => (heldBy models n).length).sum
  goes_on {s : Search} (h : s.toVisit ≠ []) : ∃ s', Turn (heldBy models) s s'
  found {k : Nat} {seen : List String}
    (h : Turns (heldBy models) k ⟨[],heldBy models start⟩ ⟨seen,[]⟩) (b : String) :
    b ∈ seen ↔ Relation.TransGen (InlineEdge models) start b
  /-- The search that is run is one of them. -/
  run : ∃ k, Turns (heldBy models) k ⟨[],heldBy models start⟩ ⟨reachable models start,[]⟩

theorem searchEnds (models : List Model) (start : String) : SearchEnds models start where
  bounded {k s} h := by
    have hmet : ∀ n, Search.Met ⟨[],heldBy models start⟩ n → n ∈ names models := fun n hn =>
      heldBy_subset_names models start n (hn.resolve_left List.not_mem_nil)
    have hle := h.add_work_le (fun a _ => heldBy_subset_names models a) hmet
    simpa [Search.work, unseen] using Nat.le_trans (Nat.le_add_right _ _) hle
  goes_on := exists_turn (heldBy models)
  found h b := by
    rw [inlineEdge_eq]
    exact h.mem_seen_iff
  run := turns_visit_heldBy models start

/-- A type of a part leads back to a listed model exactly if it names that model, or a listed one
from which a chain of inline parts leads there. Nothing else leads back, and each search ends. -/
theorem reachability_exact {models : List Model} {owner : String} (ho : owner ∈ names models)
    (part : TypeRef) :
    ((ofModels models).cyclesBack part owner = true ↔
      part = .named owner ∨
        ∃ n ∈ names models, part = .named n ∧
          Relation.TransGen (InlineEdge models) n owner) ∧
    ((∀ n ∈ names models, part ≠ .named n) →
      (ofModels models).cyclesBack part owner = false) ∧
    ∀ start ∈ names models, SearchEnds models start := by
  have hback : (ofModels models).cyclesBack part owner = true ↔
      part = .named owner ∨
        ∃ n ∈ names models, part = .named n ∧ Relation.TransGen (InlineEdge models) n owner := by
    rw [cyclesBack_iff]
    constructor
    · rintro ⟨n,hn,hway⟩
      rcases Relation.reflTransGen_iff_eq_or_transGen.mp hway with rfl | hway
      · exact .inl hn
      · obtain ⟨b,hb,_⟩ := Relation.TransGen.head'_iff.mp hway
        exact .inr ⟨n,hb.source_mem,hn,hway⟩
    · rintro (rfl | ⟨n,_,hn,hway⟩)
      · exact ⟨owner,rfl,.refl⟩
      · exact ⟨n,hn,hway.to_reflTransGen⟩
  refine ⟨hback,fun hnone => ?_,fun start _ => searchEnds models start⟩
  rw [Bool.eq_false_iff, ne_eq, hback]
  rintro (rfl | ⟨n,hn,rfl,_⟩)
  · exact hnone owner ho rfl
  · exact hnone n hn rfl

/-- A record, an alias and a union, each inside the one before and the first inside the last, with a
map of records beside them. -/
def encircled : List Model :=
  [⟨"Node","node",none,.record (.ofFields [⟨"next",.named "Link",true,none,none⟩]),[]⟩,
    ⟨"Link","link",none,.alias (.named "Either"),[]⟩,
    ⟨"Either","either",none,.union [.text,.named "Node"],[]⟩,
    ⟨"Table","table",none,.map (.named "Node"),[]⟩]

theorem reachability_exact_encircled :
    "Either" ∈ names encircled ∧
      (ofModels encircled).cyclesBack (.named "Node") "Either" = true ∧
      (ofModels encircled).cyclesBack (.named "Table") "Either" = false ∧
      (ofModels encircled).cyclesBack (.array (.named "Node")) "Either" = false ∧
      SearchEnds encircled "Node" := by
  have ho : "Either" ∈ names encircled := by decide
  have hfirst : InlineEdge encircled "Node" "Link" := inlineEdge_iff.mpr (by decide)
  have hlast : InlineEdge encircled "Link" "Either" := inlineEdge_iff.mpr (by decide)
  have hway := (Relation.TransGen.single hfirst).tail hlast
  refine ⟨ho,(reachability_exact ho _).1.mpr (.inr ⟨"Node",by decide,rfl,hway⟩),?_,
    (reachability_exact ho _).2.1 (by simp),(reachability_exact ho .text).2.2 _ (by decide)⟩
  rw [Bool.eq_false_iff, ne_eq, (reachability_exact ho _).1]
  rintro (h | ⟨n,_,h,hway⟩)
  · exact absurd h (by decide)
  · obtain ⟨b,hb,_⟩ := Relation.TransGen.head'_iff.mp hway
    have hheld : heldBy encircled "Table" = [] := by decide
    rw [inlineEdge_iff, ← TypeRef.named.inj h, hheld] at hb
    cases hb

end ClientGen.Containment
