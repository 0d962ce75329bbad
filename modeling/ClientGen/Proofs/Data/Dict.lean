import ClientGen.Data.Dict
import Mathlib.Data.List.Induction
import Mathlib.Data.List.Sort

/-! # Lookups in tables

A table is what its lookups say: an entry is there exactly when its key finds it, an insertion
changes one key, and a list read into a table gives each key its last value.
-/
namespace ClientGen.Dict
variable {α : Type u}

theorem lookup_cons (e : String × α) (es : List (String × α)) (q : String) :
    (e :: es).lookup q = if q = e.1 then some e.2 else es.lookup q := by
  rw [show e = (e.1,e.2) from rfl, List.lookup_cons]
  by_cases h : q = e.1
  · rw [if_pos h, beq_iff_eq.mpr h]
  · rw [if_neg h, beq_eq_false_iff_ne.mpr h]

theorem lookup_insertEntry (k : String) (v : α) (es : List (String × α)) (q : String) :
    (insertEntry k v es).lookup q = if q = k then some v else es.lookup q := by
  induction es with
  | nil => simp [insertEntry, lookup_cons]
  | cons e rest ih =>
    unfold insertEntry
    split
    · rw [lookup_cons]
    · split
      · rename_i he
        by_cases h : q = k <;> simp [lookup_cons, h, ← he]
      · rename_i hne
        by_cases h : q = e.1
        · have hq : q ≠ k := fun hk => hne (hk.symm.trans h)
          simp [lookup_cons, hq, ← h]
        · simp [lookup_cons, h, ih]

theorem get?_insert (d : Dict α) (k : String) (v : α) (q : String) :
    (d.insert k v).get? q = if q = k then some v else d.get? q :=
  lookup_insertEntry k v d.entries q

theorem mem_of_lookup {es : List (String × α)} {k : String} {v : α}
    (h : es.lookup k = some v) : (k,v) ∈ es := by
  induction es with
  | nil => simp at h
  | cons e rest ih =>
    rw [lookup_cons] at h
    split at h
    · rename_i hk
      simp [hk, ← Option.some.inj h]
    · exact List.mem_cons_of_mem _ (ih h)

theorem exists_lookup_of_mem {es : List (String × α)} {k : String} {v : α} (h : (k,v) ∈ es) :
    ∃ w, es.lookup k = some w := by
  induction es with
  | nil => simp at h
  | cons e rest ih =>
    rw [lookup_cons]
    split
    · exact ⟨e.2,rfl⟩
    · rename_i hk
      rcases List.mem_cons.mp h with he | h
      · exact absurd (congrArg Prod.fst he) hk
      · exact ih h

theorem eq_of_mem_of_mem {es : List (String × α)} (hs : es.Pairwise fun a b => a.1 < b.1)
    {k : String} {v w : α} (hv : (k,v) ∈ es) (hw : (k,w) ∈ es) : v = w := by
  induction es with
  | nil => simp at hv
  | cons e rest ih =>
    obtain ⟨he,hrest⟩ := List.pairwise_cons.mp hs
    rcases List.mem_cons.mp hv with rfl | hv'
    · rcases List.mem_cons.mp hw with hw | hw
      · exact (congrArg Prod.snd hw).symm
      · exact absurd (he _ hw) (String.lt_irrefl _)
    · rcases List.mem_cons.mp hw with rfl | hw'
      · exact absurd (he _ hv') (String.lt_irrefl _)
      · exact ih hrest hv' hw'

/-- Entries are what lookups find. -/
theorem get?_eq_some_iff {d : Dict α} {k : String} {v : α} :
    d.get? k = some v ↔ (k,v) ∈ d.entries := by
  constructor
  · exact mem_of_lookup
  · intro h
    obtain ⟨w,hw⟩ := exists_lookup_of_mem h
    rw [eq_of_mem_of_mem d.increasing h (mem_of_lookup hw)]
    exact hw

/-- Entries in the order of their keys are told by which they are. -/
theorem entries_eq {es fs : List (String × α)} (hes : es.Pairwise fun a b => a.1 < b.1)
    (hfs : fs.Pairwise fun a b => a.1 < b.1) (h : ∀ e, e ∈ es ↔ e ∈ fs) : es = fs := by
  let before (a b : String × α) : Prop := a.1 < b.1
  have hirrefl : Std.Irrefl before := ⟨fun a => String.lt_irrefl a.1⟩
  have hantisymm : Std.Antisymm before :=
    ⟨fun a b hab hba => absurd (String.lt_trans hab hba) (String.lt_irrefl _)⟩
  exact List.Pairwise.eq_of_mem_iff (r := before) hes hfs h

/-- Tables with the same lookups are the same. -/
theorem eq_of_get? {d d' : Dict α} (h : ∀ k v, d.get? k = some v ↔ d'.get? k = some v) :
    d = d' := by
  refine Dict.ext (entries_eq d.increasing d'.increasing ?_)
  rintro ⟨k,v⟩
  rw [← get?_eq_some_iff, h, get?_eq_some_iff]

/-- A key selects its entry, if there is one. -/
theorem filter_key_eq (d : Dict α) (k : String) :
    d.entries.filter (fun e => e.1 == k) = ((d.get? k).map fun v => (k,v)).toList := by
  obtain ⟨es,hes⟩ := d
  show es.filter _ = ((es.lookup k).map _).toList
  induction es with
  | nil => rfl
  | cons e rest ih =>
    obtain ⟨hlater,hrest⟩ := List.pairwise_cons.mp hes
    rw [List.filter_cons, lookup_cons]
    by_cases h : e.1 = k
    · subst h
      have hnone : rest.filter (fun e' => e'.1 == e.1) = [] := by
        refine List.filter_eq_nil_iff.mpr fun e' he' heq => ?_
        have hlt := hlater e' he'
        rw [beq_iff_eq.mp heq] at hlt
        exact String.lt_irrefl _ hlt
      simp [hnone]
    · have h' : k ≠ e.1 := fun he => h he.symm
      simp [h, h', ih hrest]

/-- A deletion takes one key away. -/
theorem get?_erase (d : Dict α) (k q : String) :
    (d.erase k).get? q = if q = k then none else d.get? q := by
  refine Option.ext fun v => ?_
  rw [get?_eq_some_iff]
  by_cases h : q = k
  · simp [erase, filter, h]
  · simp [erase, filter, h, ← get?_eq_some_iff]

theorem erase_eq_self {d : Dict α} {k : String} (h : d.get? k = none) : d.erase k = d := by
  refine Dict.ext (List.filter_eq_self.mpr fun e he => bne_iff_ne.mpr ?_)
  rintro rfl
  cases h.symm.trans (get?_eq_some_iff.mpr he)

/-- An entry with those before and those after it, which are left if it is deleted. -/
theorem exists_split {d : Dict α} {k : String} {v : α} (h : d.get? k = some v) :
    ∃ before after, d.entries = before ++ (k,v) :: after ∧ (d.erase k).entries = before ++ after ∧
      (∀ e ∈ before, e.1 < k) ∧ ∀ e ∈ after, k < e.1 := by
  obtain ⟨before,after,hsplit⟩ := List.append_of_mem (get?_eq_some_iff.mp h)
  have hincreasing := d.increasing
  rw [hsplit, List.pairwise_append, List.pairwise_cons] at hincreasing
  obtain ⟨_,⟨hafter,_⟩,hbefore⟩ := hincreasing
  have hless : ∀ e ∈ before, e.1 < k := fun e he => hbefore e he _ List.mem_cons_self
  refine ⟨before,after,hsplit,?_,hless,hafter⟩
  show d.entries.filter (fun e => e.1 != k) = _
  have hkeep : ∀ e ∈ before, (e.1 != k) = true := fun e he => bne_iff_ne.mpr fun heq =>
    String.lt_irrefl _ (heq ▸ hless e he)
  have hkeep' : ∀ e ∈ after, (e.1 != k) = true := fun e he => bne_iff_ne.mpr fun heq =>
    String.lt_irrefl _ (heq ▸ hafter e he)
  rw [hsplit, List.filter_append, List.filter_eq_self.mpr hkeep, List.filter_cons, if_neg (by simp),
    List.filter_eq_self.mpr hkeep']

theorem mem_keys_iff {d : Dict α} {k : String} : k ∈ d.keys ↔ ∃ v, d.get? k = some v := by
  simp [keys, get?_eq_some_iff]

theorem contains_iff {d : Dict α} {k : String} : d.contains k = true ↔ ∃ v, d.get? k = some v :=
  Option.isSome_iff_exists

theorem mem_values_iff {d : Dict α} {v : α} : v ∈ d.values ↔ ∃ k, d.get? k = some v := by
  simp [values, get?_eq_some_iff]

theorem keys_increasing (d : Dict α) : d.keys.Pairwise (· < ·) :=
  List.pairwise_map.mpr d.increasing

theorem keys_nodup (d : Dict α) : d.keys.Nodup :=
  d.keys_increasing.nodup

/-- Where every value knows its key, the values come in the order of their keys. -/
theorem map_values_eq_keys {d : Dict α} {key : α → String}
    (h : ∀ k v, d.get? k = some v → key v = k) : d.values.map key = d.keys := by
  rw [values, keys, List.map_map]
  apply List.map_congr_left
  intro e he
  exact h e.1 e.2 (get?_eq_some_iff.mpr he)

/-! ## Tables of lists -/

@[simp] theorem get?_empty (q : String) : (empty : Dict α).get? q = none := rfl

theorem ofList_concat (es : List (String × α)) (e : String × α) :
    ofList (es ++ [e]) = (ofList es).insert e.1 e.2 := by
  simp [ofList]

/-- The last value of a key counts. -/
theorem get?_ofList (es : List (String × α)) (q : String) :
    (ofList es).get? q = es.reverse.lookup q := by
  induction es using List.reverseRecOn with
  | nil => rfl
  | append_singleton es e ih =>
    rw [ofList_concat, get?_insert, ih, List.reverse_append, List.reverse_singleton,
      List.singleton_append, lookup_cons]

/-- Of what is listed under a key, the last counts. -/
theorem get?_ofList_map {β : Type v} (key : β → String) (value : β → α) (xs : List β)
    (k : String) : (ofList (xs.map fun x => (key x,value x))).get? k =
      (xs.filter (key · == k)).getLast?.map value := by
  induction xs using List.reverseRecOn with
  | nil => rfl
  | append_singleton xs x ih =>
    rw [List.map_append, List.map_singleton, ofList_concat, get?_insert, ih, List.filter_append,
      List.getLast?_append]
    by_cases h : k = key x
    · simp [h]
    · simp [h, Ne.symm h]

theorem mem_of_get?_ofList {es : List (String × α)} {k : String} {v : α}
    (h : (ofList es).get? k = some v) : (k,v) ∈ es := by
  rw [get?_ofList] at h
  exact List.mem_reverse.mp (mem_of_lookup h)

/-- A key that is listed with one value only is found with it. -/
theorem get?_ofList_of_mem {es : List (String × α)} {k : String} {v : α} (h : (k,v) ∈ es)
    (hu : ∀ w, (k,w) ∈ es → w = v) : (ofList es).get? k = some v := by
  rw [get?_ofList]
  obtain ⟨w,hw⟩ := exists_lookup_of_mem (List.mem_reverse.mpr h)
  rw [hw, hu w (List.mem_reverse.mp (mem_of_lookup hw))]

theorem mem_keys_ofList {es : List (String × α)} {k : String} :
    k ∈ (ofList es).keys ↔ k ∈ es.map Prod.fst := by
  rw [mem_keys_iff]
  constructor
  · rintro ⟨v,hv⟩
    exact List.mem_map.mpr ⟨_,mem_of_get?_ofList hv,rfl⟩
  · intro h
    obtain ⟨⟨k',v⟩,hm,rfl⟩ := List.mem_map.mp h
    rw [get?_ofList]
    exact exists_lookup_of_mem (List.mem_reverse.mpr hm)

@[simp] theorem mem_sortedNames {names : List String} {n : String} :
    n ∈ sortedNames names ↔ n ∈ names := by
  simp [sortedNames, mem_keys_ofList]

end ClientGen.Dict

namespace ClientGen

/-! ## Lists told apart by a key -/

section Keyed
variable {α β γ : Type} {key : α → γ} {xs : List α} {x : α}

/-- What one item alone contributes is the whole. -/
theorem flatMap_eq_of_mem {f : α → List β} (hd : (xs.map key).Nodup) (hx : x ∈ xs)
    (hf : ∀ y ∈ xs, key y ≠ key x → f y = []) : xs.flatMap f = f x := by
  induction xs with
  | nil => cases hx
  | cons y rest ih =>
    obtain ⟨hy,hrest⟩ := List.nodup_cons.mp hd
    obtain ⟨hfirst,hlater⟩ := List.forall_mem_cons.mp hf
    rw [List.flatMap_cons]
    rcases List.mem_cons.mp hx with rfl | hx
    · have hnone : rest.flatMap f = [] := by
        refine List.flatMap_eq_nil_iff.mpr ?_
        intro z hz
        exact hlater z hz fun he => hy (he ▸ List.mem_map_of_mem hz)
      rw [hnone, List.append_nil]
    · have hne : key y ≠ key x := fun he => hy (he ▸ List.mem_map_of_mem hx)
      rw [hfirst hne, List.nil_append, ih hrest hx hlater]

theorem filter_eq_of_mem [DecidableEq γ] (hd : (xs.map key).Nodup) (hx : x ∈ xs) :
    xs.filter (key · == key x) = [x] := by
  rw [← List.flatMap_singleton' xs, List.filter_flatMap, flatMap_eq_of_mem hd hx]
  · simp
  · intro y _ hne
    simp [hne]

end Keyed

end ClientGen
