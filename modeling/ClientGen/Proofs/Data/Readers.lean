import ClientGen.Proofs.Data.MemberOrder

/-! # Readers of reordered trees

A reader agrees at a place if it reads the same off any two trees that are reordered there. Readers
of parts pass this on to readers of lists, of tables and of records.
-/
namespace ClientGen
open ClientGen.Tree
variable {ζ : Type} {L : Layout ζ} {z : ζ} {t t' : Tree} {α : Type}

/-- The reader reads the same off trees that are reordered at the place. -/
def Agrees (L : Layout ζ) (z : ζ) (read : Reader α) : Prop :=
  ∀ t t', Reordered L z t t' → read t = read t'

namespace Agrees

theorem text? : Agrees L z Tree.text? := by
  rintro t t' ⟨⟩ <;> rfl

theorem bool? : Agrees L z Tree.bool? := by
  rintro t t' ⟨⟩ <;> rfl

theorem json? : Agrees L z Tree.json? :=
  fun _ _ => Reordered.json?_eq

theorem map {β : Type} {read : Reader α} (h : Agrees L z read) (f : α → β) :
    Agrees L z fun t => (read t).map f :=
  fun t t' ht => congrArg (Option.map f) (h t t' ht)

theorem option {read : Reader α} (h : Agrees L z read) : Agrees L z (Reader.option read) := by
  intro t t' ht
  have hnull : t.isNull = t'.isNull := by cases ht <;> rfl
  rw [Reader.option, Reader.option, hnull, h t t' ht]

theorem either {first second : Reader α} (h : Agrees L z first) (h' : Agrees L z second) :
    Agrees L z (Reader.either first second) := by
  intro t t' ht
  rcases ht.resolution with ⟨hnone,hnone'⟩ | ⟨hsome,hsome'⟩
  · rw [Reader.either, Reader.either, hnone, hnone']
  · have hread : (first t <|> second t) = (first t' <|> second t') := by
      rw [h t t' ht, h' t t' ht]
    rw [Reader.either, Reader.either, hsome, hsome']
    exact hread

/-! ## Lists and tables -/

theorem listOf {read : Reader α} (h : ∀ i, Agrees L (L.item z i) read) :
    Agrees L z (Reader.listOf read) := by
  rintro t t' (⟨_⟩ | ⟨hlength,hitems⟩ | _)
  · rfl
  · exact mapM_congr hlength fun i t t' ht ht' => h i t t' (hitems i t t' ht ht')
  · rfl

theorem dictOf_object (read : Reader α) (ms : List (Key × Tree)) :
    Reader.dictOf read (.object ms) = (readMembers read ms).map Dict.ofList := by
  rw [Option.map_eq_bind]
  rfl

theorem dictOf {read : Reader α} (h : ∀ name, Agrees L (L.member z name) read) :
    Agrees L z (Reader.dictOf read) := by
  rintro t t' (⟨_⟩ | _ | ⟨hnamed,hnamed',hperm,_,hvalues⟩)
  · rfl
  · rfl
  · have hmatched := matched_of_perm hnamed hnamed' hperm fun name t t' ht ht' =>
      h name t t' (hvalues name t t' ht ht')
    rw [dictOf_object, dictOf_object, table_eq hnamed hnamed' hmatched]

theorem entriesOf {read : Reader α} (ho : L.ordered z)
    (h : ∀ name, Agrees L (L.member z name) read) :
    Agrees L z (Reader.entriesOf read) := by
  rintro t t' (⟨_⟩ | _ | ⟨hnamed,hnamed',_,hordered,hvalues⟩)
  · rfl
  · rfl
  · cases hordered ho
    exact readMembers_congr hnamed hnamed' fun name t t' ht ht' =>
      h name t t' (hvalues name t t' ht ht')

end Agrees

/-! ## Records -/

namespace Members

theorem lookup_zip {names : List String} {ts : List Tree} (h : ts.length ≤ names.length)
    (name : String) : (names.zip ts).lookup name = ts[names.idxOf name]? := by
  induction names generalizing ts with
  | nil => simp_all
  | cons n names ih =>
    cases ts with
    | nil => simp
    | cons t ts =>
      rw [List.zip_cons_cons, Dict.lookup_cons, List.idxOf_cons]
      by_cases hn : name = n
      · simp [hn]
      · have hn' : (n == name) = false := beq_eq_false_iff_ne.mpr (Ne.symm hn)
        rw [if_neg hn, hn', ih (Nat.le_of_succ_le_succ h)]
        rfl

theorem keep?_of_named (names : List String) {ns : List String} {ms : List (Key × Tree)}
    (h : Named ns ms) :
    ∃ values, keep? names ms = some values ∧
      ∀ name t, values.lookup name = some t ↔ name ∈ names ∧ (.text name,t) ∈ ms := by
  induction ms generalizing ns with
  | nil => exact ⟨[],rfl,by simp⟩
  | cons m ms ih =>
    obtain ⟨k,t⟩ := m
    obtain ⟨n,rest,rfl,rfl,hn,hrest⟩ := Named.cons_iff.mp h
    obtain ⟨later,hlater,hlookup⟩ := ih hrest
    by_cases hmem : n ∈ names
    · -- Only a name that comes again later would be refused.
      have hfresh : later.lookup n = none := by
        by_contra hsome
        obtain ⟨t',ht'⟩ := Option.ne_none_iff_exists'.mp hsome
        exact hn (hrest.mem_of_member ((hlookup n t').mp ht').2)
      refine ⟨(n,t) :: later,by simp [keep?, Key.member?, hmem, hlater, hfresh],fun name t' => ?_⟩
      rw [Dict.lookup_cons]
      by_cases he : name = n
      · subst he
        have hnot (t' : Tree) : (.text name,t') ∉ ms := fun hm => hn (hrest.mem_of_member hm)
        simp [hmem, hnot, eq_comm]
      · simp [he, hlookup]
    · refine ⟨later,by simp [keep?, Key.member?, hmem, hlater],fun name t' => ?_⟩
      rw [hlookup, List.mem_cons, Prod.mk.injEq, Key.text.injEq]
      constructor
      · exact fun ⟨hname,hm⟩ => ⟨hname,.inr hm⟩
      · rintro ⟨hname,⟨rfl,_⟩ | hm⟩
        · exact absurd hname hmem
        · exact ⟨hname,hm⟩

/-- Records with reordered trees for the same members. -/
structure Alike (L : Layout ζ) (z : ζ) (m m' : Members) : Prop where
  positional : m.positional = m'.positional
  values (name : String) : (m.values.lookup name = none ∧ m'.values.lookup name = none) ∨
    ∃ t t', m.values.lookup name = some t ∧ m'.values.lookup name = some t' ∧
      Reordered L (L.member z name) t t'

namespace Alike
variable {m m' : Members} {read : Reader α}

theorem required (h : Alike L z m m') (name : String)
    (hread : Agrees L (L.member z name) read) :
    m.required name read = m'.required name read := by
  rcases h.values name with ⟨hnone,hnone'⟩ | ⟨t,t',hsome,hsome',ht⟩
  · rw [Members.required, Members.required, hnone, hnone']
  · rw [Members.required, Members.required, hsome, hsome']
    exact hread t t' ht

theorem optional (h : Alike L z m m') (name : String)
    (hread : Agrees L (L.member z name) read) :
    m.optional name read = m'.optional name read := by
  rcases h.values name with ⟨hnone,hnone'⟩ | ⟨t,t',hsome,hsome',ht⟩
  · rw [Members.optional, Members.optional, hnone, hnone', h.positional]
  · rw [Members.optional, Members.optional, hsome, hsome']
    exact hread.option t t' ht

theorem defaulted (h : Alike L z m m') (name : String) (default : α)
    (hread : Agrees L (L.member z name) read) :
    m.defaulted name default read = m'.defaulted name default read := by
  rcases h.values name with ⟨hnone,hnone'⟩ | ⟨t,t',hsome,hsome',ht⟩
  · rw [Members.defaulted, Members.defaulted, hnone, hnone']
  · rw [Members.defaulted, Members.defaulted, hsome, hsome']
    exact hread t t' ht

/-- The items of a list stand where the members do that they are. -/
theorem of_list {names : List String} {ts ts' : List Tree}
    (hnames : ∀ (i : Nat) name, names[i]? = some name → L.item z i = L.member z name)
    (hfits : ts.length ≤ names.length) (hlength : ts.length = ts'.length)
    (hitems : ∀ (i : Nat) t t', ts[i]? = some t → ts'[i]? = some t' →
      Reordered L (L.item z i) t t') :
    Alike L z ⟨names.zip ts,true⟩ ⟨names.zip ts',true⟩ where
  positional := rfl
  values name := by
    rw [lookup_zip hfits, lookup_zip (hlength ▸ hfits)]
    by_cases hi : names.idxOf name < ts.length
    · have hname : name ∈ names := List.idxOf_lt_length_iff.mp (Nat.lt_of_lt_of_le hi hfits)
      have hi' : names.idxOf name < ts'.length := hlength ▸ hi
      have hplace : L.item z (names.idxOf name) = L.member z name :=
        hnames _ _ (List.getElem?_idxOf hname)
      have ht := hitems _ _ _ (List.getElem?_eq_getElem hi) (List.getElem?_eq_getElem hi')
      exact .inr ⟨_,_,List.getElem?_eq_getElem hi,List.getElem?_eq_getElem hi',hplace ▸ ht⟩
    · have hi' : ts.length ≤ names.idxOf name := Nat.le_of_not_lt hi
      exact .inl ⟨List.getElem?_eq_none hi',List.getElem?_eq_none (hlength ▸ hi')⟩

theorem of_matched {names : List String} {ms ms' : List (Key × Tree)}
    {values values' : List (String × Tree)}
    (hmatched : Matched (fun name => Reordered L (L.member z name)) ms ms')
    (h : ∀ name t, values.lookup name = some t ↔ name ∈ names ∧ (.text name,t) ∈ ms)
    (h' : ∀ name t, values'.lookup name = some t ↔ name ∈ names ∧ (.text name,t) ∈ ms') :
    Alike L z ⟨values,false⟩ ⟨values',false⟩ where
  positional := rfl
  values name := by
    cases hv : values.lookup name with
    | some t =>
      obtain ⟨hname,hm⟩ := (h name t).mp hv
      obtain ⟨t',hm',ht⟩ := hmatched.right name t hm
      exact .inr ⟨t,t',rfl,(h' name t').mpr ⟨hname,hm'⟩,ht⟩
    | none =>
      cases hv' : values'.lookup name with
      | none => exact .inl ⟨rfl,rfl⟩
      | some t' =>
        obtain ⟨hname,hm'⟩ := (h' name t').mp hv'
        obtain ⟨t,hm,_⟩ := hmatched.left name t' hm'
        cases hv.symm.trans ((h name t).mpr ⟨hname,hm⟩)

end Alike
end Members

/-- Members of a record stand where they do in whatever form the record is written. -/
theorem Agrees.record {names : List String} {read : Members → Option α}
    (hnames : ∀ (i : Nat) name, names[i]? = some name → L.item z i = L.member z name)
    (hread : ∀ m m', Members.Alike L z m m' → read m = read m') :
    Agrees L z fun t => (Members.read? names t).bind read := by
  rintro t t' (hleaf | ⟨hlength,hitems⟩ | ⟨hnamed,hnamed',hperm,_,hvalues⟩)
  · rfl
  · simp only [Members.read?, ← hlength]
    split
    · rename_i hfits
      exact hread _ _ (.of_list hnames hfits hlength hitems)
    · rfl
  · obtain ⟨values,hkept,hlookup⟩ := Members.keep?_of_named names hnamed
    obtain ⟨values',hkept',hlookup'⟩ := Members.keep?_of_named names hnamed'
    have hread' := hread ⟨values,false⟩ ⟨values',false⟩
      (.of_matched (matched_of_perm hnamed hnamed' hperm hvalues) hlookup hlookup')
    simpa [Members.read?, Tree.members?, hkept, hkept'] using hread'

end ClientGen
