/-! # Tables with text keys

A finite map from text kept as its pairs in increasing key order, so that equal maps are equal lists
and walking a table is walking its keys in order.
-/
namespace ClientGen

structure Dict (α : Type u) where
  entries : List (String × α)
  increasing : entries.Pairwise fun a b => a.1 < b.1

namespace Dict
variable {α : Type u} {β : Type v}

@[ext] theorem ext {s t : Dict α} (h : s.entries = t.entries) : s = t := by
  cases s; cases t; cases h; rfl

instance [DecidableEq α] : DecidableEq (Dict α) := fun s t =>
  decidable_of_iff (s.entries = t.entries) ⟨Dict.ext, congrArg entries⟩

def empty : Dict α := ⟨[], .nil⟩

instance : Inhabited (Dict α) := ⟨empty⟩

def insertEntry (k : String) (v : α) : List (String × α) → List (String × α)
  | [] => [(k, v)]
  | e :: rest =>
    if k < e.1 then (k, v) :: e :: rest
    else if k = e.1 then (k, v) :: rest
    else e :: insertEntry k v rest

theorem key_of_mem_insertEntry {k : String} {v : α} {es : List (String × α)} {e : String × α}
    (h : e ∈ insertEntry k v es) : e.1 = k ∨ e ∈ es := by
  induction es with
  | nil => simp_all [insertEntry]
  | cons a rest ih =>
    unfold insertEntry at h
    split at h
    · simp only [List.mem_cons] at h
      rcases h with rfl | h
      · exact .inl rfl
      · exact .inr (by simpa using h)
    · split at h
      · simp only [List.mem_cons] at h
        rcases h with rfl | h
        · exact .inl rfl
        · exact .inr (List.mem_cons_of_mem _ h)
      · simp only [List.mem_cons] at h
        rcases h with rfl | h
        · exact .inr List.mem_cons_self
        · exact (ih h).imp_right (List.mem_cons_of_mem _)

theorem insertEntry_increasing (k : String) (v : α) {es : List (String × α)}
    (h : es.Pairwise fun a b => a.1 < b.1) :
    (insertEntry k v es).Pairwise fun a b => a.1 < b.1 := by
  induction es with
  | nil => simp [insertEntry]
  | cons a rest ih =>
    have ⟨ha, hrest⟩ := List.pairwise_cons.1 h
    unfold insertEntry
    split
    · rename_i hk
      refine List.pairwise_cons.2 ⟨fun b hb => ?_, h⟩
      rcases List.mem_cons.1 hb with rfl | hb
      · exact hk
      · exact String.lt_trans hk (ha b hb)
    · split
      · rename_i hk
        exact List.pairwise_cons.2 ⟨fun b hb => by simpa [hk] using ha b hb, hrest⟩
      · rename_i hlt hne
        refine List.pairwise_cons.2 ⟨fun b hb => ?_, ih hrest⟩
        rcases key_of_mem_insertEntry hb with hb | hb
        · rw [hb]
          exact Std.lt_of_le_of_ne (String.not_lt.1 hlt) (Ne.symm hne)
        · exact ha b hb

/-- Gives `k` the value `v`, whatever it had before. -/
def insert (d : Dict α) (k : String) (v : α) : Dict α :=
  ⟨insertEntry k v d.entries, insertEntry_increasing k v d.increasing⟩

/-- A key that is listed more than once keeps its last value. -/
def ofList (es : List (String × α)) : Dict α :=
  es.foldl (fun d e => d.insert e.1 e.2) empty

/-- The pairs that satisfy `p`. -/
def filter (d : Dict α) (p : String → α → Bool) : Dict α :=
  ⟨d.entries.filter fun e => p e.1 e.2, d.increasing.filter _⟩

def erase (d : Dict α) (k : String) : Dict α :=
  d.filter fun k' _ => k' != k

def get? (d : Dict α) (k : String) : Option α :=
  d.entries.lookup k

def contains (d : Dict α) (k : String) : Bool :=
  (d.get? k).isSome

def keys (d : Dict α) : List String :=
  d.entries.map (·.1)

def values (d : Dict α) : List α :=
  d.entries.map (·.2)

def isEmpty (d : Dict α) : Bool :=
  d.entries.isEmpty

/-- The names in order, each once. -/
def sortedNames (names : List String) : List String :=
  (ofList (names.map fun n => (n, ()))).keys

end Dict
end ClientGen
