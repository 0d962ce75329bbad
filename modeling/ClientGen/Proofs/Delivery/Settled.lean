import ClientGen.Proofs.Delivery.FileSystem
import ClientGen.Proofs.Delivery.Writing
import Mathlib.Data.List.Pairwise

/-! # What a delivery leaves behind

After artifacts were written, accepted ones are in place, rejected ones lie beside their place, and
nothing else has changed; writing or comparing once more finds nothing to do.
-/
namespace ClientGen

/-! ## Files apart -/

namespace FileView
variable {σ φ : Type} {V : FileView σ φ} {artifacts : List Artifact} {a b : Artifact}

theorem Apart.symm (h : V.Apart a b) : V.Apart b a :=
  ⟨fun he => h.1 he.symm,fun he => h.2.2 he.symm,fun he => h.2.1 he.symm⟩

instance : Std.Symm V.Apart := ⟨fun _ _ => Apart.symm⟩

theorem not_same_unformatted (V : FileView σ φ) (p : Path) :
    ¬ V.Same p (Path.unformatted p) := by
  rintro ⟨hname,_⟩
  rw [Path.fileName?_unformatted] at hname
  rw [hname, Option.getD_some] at hname
  have hlength := congrArg (fun name => (name.getD "").toList.length) hname
  simp at hlength

/-- Files with names are told by their unformatted siblings. -/
theorem same_of_same_unformatted {p q : Path} (hp : (Path.fileName? p).isSome)
    (hq : (Path.fileName? q).isSome) (h : V.Same (Path.unformatted p) (Path.unformatted q)) :
    V.Same p q := by
  obtain ⟨name,hname⟩ := Option.isSome_iff_exists.mp hp
  obtain ⟨name',hname'⟩ := Option.isSome_iff_exists.mp hq
  obtain ⟨hnames,hfolder⟩ := h
  rw [Path.fileName?_unformatted, Path.fileName?_unformatted, hname, hname', Option.getD_some,
    Option.getD_some, Option.some.injEq, String.append_left_inj] at hnames
  rw [Path.parent?_unformatted hname, Path.parent?_unformatted hname'] at hfolder
  exact ⟨by rw [hname, hname', hnames],hfolder⟩

theorem not_same_of_mem (hapart : artifacts.Pairwise V.Apart) (ha : a ∈ artifacts)
    (hb : b ∈ artifacts) (hne : a ≠ b) : ¬ V.Same a.path b.path :=
  (hapart.forall ha hb hne).1

theorem not_same_sibling (hapart : artifacts.Pairwise V.Apart) (ha : a ∈ artifacts)
    (hb : b ∈ artifacts) : ¬ V.Same a.path (Path.unformatted b.path) := by
  by_cases he : a = b
  · exact he ▸ V.not_same_unformatted a.path
  · exact (hapart.forall ha hb he).2.1

/-! ## Changes of artifacts -/

theorem mem_writes {c : Path × Option String} : c ∈ a.writes ↔ ∃ text,
    a.rendered = .formatted text ∧
      (c = (a.path,some text) ∨ c = (Path.unformatted a.path,none)) := by
  unfold Artifact.writes
  cases a.rendered <;> simp

theorem mem_saves {c : Path × Option String} : c ∈ a.saves ↔ ∃ raw message,
    a.rendered = .rejected raw message ∧ c = (Path.unformatted a.path,some raw) := by
  unfold Artifact.saves
  cases a.rendered <;> simp

/-- A change made for an artifact is about its own path, which is to hold its text, or about the
sibling. -/
theorem cases_of_mem_changes {c : Path × Option String} (hc : c ∈ a.writes ++ a.saves) :
    (∃ text, a.rendered = .formatted text ∧ c = (a.path,some text)) ∨
      c.1 = Path.unformatted a.path := by
  rcases List.mem_append.mp hc with hc | hc
  · obtain ⟨text,ha,rfl | rfl⟩ := mem_writes.mp hc
    · exact .inl ⟨text,ha,rfl⟩
    · exact .inr rfl
  · obtain ⟨raw,message,_,rfl⟩ := mem_saves.mp hc
    exact .inr rfl

/-- What an accepted artifact brings to its path is not undone by changes for other artifacts. -/
theorem BringsAll.holds_path {changes : List (Path × Option String)} {s s' : σ}
    (h : V.BringsAll changes s s') (hapart : artifacts.Pairwise V.Apart)
    (hchanges : ∀ c ∈ changes, ∃ b ∈ artifacts, c ∈ b.writes ++ b.saves) (ha : a ∈ artifacts)
    {text : String} (hrendered : a.rendered = .formatted text)
    (hmem : (a.path,some text) ∈ changes) : V.holds s' a.path = some text := by
  refine h.holds hmem fun d hd => ?_
  obtain ⟨b,hb,hbd⟩ := hchanges d hd
  rcases cases_of_mem_changes hbd with ⟨text',hb',rfl⟩ | hsibling
  · by_cases he : a = b
    · subst he
      rw [hrendered] at hb'
      cases hb'
      exact .inl rfl
    · exact .inr (not_same_of_mem hapart ha hb he)
  · exact .inr (hsibling ▸ not_same_sibling hapart ha hb)

/-- What a sibling is brought to is not undone either, as long as the files have names. -/
theorem BringsAll.holds_sibling {changes : List (Path × Option String)} {s s' : σ}
    (h : V.BringsAll changes s s') (hapart : artifacts.Pairwise V.Apart)
    (hnames : ∀ b ∈ artifacts, (Path.fileName? b.path).isSome)
    (hchanges : ∀ c ∈ changes, ∃ b ∈ artifacts, c ∈ b.writes ++ b.saves) (ha : a ∈ artifacts)
    {contents : Option String}
    (hown : ∀ c ∈ a.writes ++ a.saves, c.1 = Path.unformatted a.path → c.2 = contents)
    (hmem : (Path.unformatted a.path,contents) ∈ changes) :
    V.holds s' (Path.unformatted a.path) = contents := by
  refine h.holds hmem fun d hd => ?_
  obtain ⟨b,hb,hbd⟩ := hchanges d hd
  rcases cases_of_mem_changes hbd with ⟨text,_,rfl⟩ | hsibling
  · exact .inr fun he => not_same_sibling hapart hb ha he.symm
  · by_cases he : a = b
    · subst he
      exact .inl (Prod.ext hsibling (hown d hbd hsibling))
    · refine .inr fun hsame => not_same_of_mem hapart ha hb he ?_
      rw [hsibling] at hsame
      exact same_of_same_unformatted (hnames a ha) (hnames b hb) hsame

/-! ## Deliveries -/

/-- The effect of writing artifacts. -/
structure Settled (V : FileView σ φ) (artifacts : List Artifact) (s s' : σ) : Prop where
  accepted : ∀ a ∈ artifacts, ∀ text, a.rendered = .formatted text →
    V.holds s' a.path = some text ∧ V.holds s' (Path.unformatted a.path) = none
  rejected : ∀ a ∈ artifacts, ∀ raw message, a.rendered = .rejected raw message →
    V.holds s' a.path = V.holds s a.path ∧ V.holds s' (Path.unformatted a.path) = some raw
  others : ∀ q, (∀ a ∈ artifacts, (∀ text, a.rendered = .formatted text → ¬ V.Same q a.path) ∧
    ¬ V.Same q (Path.unformatted a.path)) → V.holds s' q = V.holds s q

/-- The changes of a delivery in their order. -/
def changesOf (artifacts : List Artifact) : List (Path × Option String) :=
  artifacts.flatMap Artifact.writes ++ artifacts.flatMap Artifact.saves

theorem mem_changesOf {c : Path × Option String} :
    c ∈ changesOf artifacts ↔ ∃ a ∈ artifacts, c ∈ a.writes ++ a.saves := by
  simp only [changesOf, List.mem_append, List.mem_flatMap, and_or_left, exists_or]

variable {s s' : σ}

/-- After all changes every file that they are about holds what it is meant to hold. -/
theorem BringsAll.settled (h : V.BringsAll (changesOf artifacts) s s')
    (hapart : artifacts.Pairwise V.Apart)
    (hnames : ∀ a ∈ artifacts, (Path.fileName? a.path).isSome) : V.Settled artifacts s s' := by
  have hchanges : ∀ c ∈ changesOf artifacts, ∃ a ∈ artifacts, c ∈ a.writes ++ a.saves :=
    fun c => mem_changesOf.mp
  have hmem : ∀ a ∈ artifacts, ∀ c ∈ a.writes ++ a.saves, c ∈ changesOf artifacts :=
    fun a ha c hc => mem_changesOf.mpr ⟨a,ha,hc⟩
  constructor
  · intro a ha text hrendered
    have hwrites : a.writes ++ a.saves = [(a.path,some text),(Path.unformatted a.path,none)] := by
      simp [Artifact.writes, Artifact.saves, hrendered]
    have hne : a.path ≠ Path.unformatted a.path := by
      intro he
      have hself := V.not_same_unformatted a.path
      rw [← he] at hself
      exact hself ⟨rfl,rfl⟩
    constructor
    · exact h.holds_path hapart hchanges ha hrendered (hmem a ha _ (by simp [hwrites]))
    · refine h.holds_sibling hapart hnames hchanges ha ?_ (hmem a ha _ (by simp [hwrites]))
      simp [hwrites, hne]
  · intro a ha raw message hrendered
    have hsaves : a.writes ++ a.saves = [(Path.unformatted a.path,some raw)] := by
      simp [Artifact.writes, Artifact.saves, hrendered]
    constructor
    · refine h.frame fun c hc => ?_
      obtain ⟨b,hb,hbc⟩ := hchanges c hc
      rcases cases_of_mem_changes hbc with ⟨text,hb',rfl⟩ | hsibling
      · refine not_same_of_mem hapart ha hb ?_
        rintro rfl
        rw [hrendered] at hb'
        cases hb'
      · exact hsibling ▸ not_same_sibling hapart ha hb
    · refine h.holds_sibling hapart hnames hchanges ha ?_ (hmem a ha _ (by simp [hsaves]))
      simp [hsaves]
  · intro q hq
    refine h.frame fun c hc => ?_
    obtain ⟨a,ha,hac⟩ := hchanges c hc
    obtain ⟨hpath,hsibling⟩ := hq a ha
    rcases cases_of_mem_changes hac with ⟨text,hrendered,rfl⟩ | hc
    · exact hpath text hrendered
    · exact hc ▸ hsibling

theorem Settled.held (h : V.Settled artifacts s s') :
    ∀ c ∈ changesOf artifacts, V.holds s' c.1 = c.2 := by
  intro c hc
  obtain ⟨a,ha,hac⟩ := mem_changesOf.mp hc
  rcases List.mem_append.mp hac with hac | hac
  · obtain ⟨text,hrendered,rfl | rfl⟩ := mem_writes.mp hac
    · exact (h.accepted a ha text hrendered).1
    · exact (h.accepted a ha text hrendered).2
  · obtain ⟨raw,message,hrendered,rfl⟩ := mem_saves.mp hac
    exact (h.rejected a ha raw message hrendered).2

theorem failures_eq_nil : artifacts.filterMap Artifact.failure? = [] ↔
    ∀ a ∈ artifacts, ∃ text, a.rendered = .formatted text := by
  rw [List.filterMap_eq_nil_iff]
  refine forall₂_congr fun a _ => ?_
  unfold Artifact.failure?
  cases a.rendered <;> simp

end FileView

namespace Delivery
variable {σ φ : Type} {V : FileView σ φ} {artifacts : List Artifact} {s s' : σ}

theorem verdict_congr {α : Type} {failures : List FormatFailure} {a b : α}
    (h : failures = [] → a = b) : verdict failures a = verdict failures b := by
  unfold verdict
  split
  · rw [h (List.isEmpty_iff.mp ‹_›)]
  · rfl

theorem isStale_eq_not_isCurrent {a : Artifact} {text : String} (h : a.rendered = .formatted text)
    (s : σ) : V.isStale s a = !V.isCurrent s a := by
  simp [FileView.isStale, FileView.isCurrent, Artifact.text?, h, bne]

/-- Without rejected artifacts, those that are not stale are current. -/
theorem countP_isCurrent (h : artifacts.filterMap Artifact.failure? = []) (s : σ) :
    artifacts.countP (V.isCurrent s) = artifacts.length - artifacts.countP (V.isStale s) := by
  have hstale : artifacts.countP (V.isStale s) = artifacts.countP fun a => !V.isCurrent s a := by
    refine List.countP_congr fun a ha => ?_
    obtain ⟨text,hrendered⟩ := FileView.failures_eq_nil.mp h a ha
    rw [isStale_eq_not_isCurrent hrendered]
  have hlength : artifacts.length = artifacts.countP (V.isCurrent s) + artifacts.countP _ :=
    List.length_eq_countP_add_countP (V.isCurrent s)
  simp only [Bool.not_eq_true, Bool.decide_eq_false] at hlength
  omega

theorem drift?_eq_none {a : Artifact} : V.drift? s a = none ↔ V.isStale s a = false := by
  unfold FileView.drift? FileView.isStale
  cases a.text? <;> simp

theorem isStale_of_settled (h : V.Settled artifacts s s') {a : Artifact} (ha : a ∈ artifacts) :
    V.isStale s' a = false := by
  obtain ⟨path,rendered⟩ := a
  cases rendered with
  | formatted text =>
    have hheld := (h.accepted _ ha text rfl).1
    simp [FileView.isStale, Artifact.text?, hheld]
  | rejected raw message => rfl

variable [Storage (StateM σ)] {served : Path → Prop}

/-- Writing artifacts puts each one where it belongs and changes nothing else. Once they are
written, writing again and comparing find nothing to do and report the same failures. -/
theorem write_settles (h : V.Serves served) (hs : V.sound s)
    (hserved : ∀ a ∈ artifacts, served a.path ∧ served (Path.unformatted a.path))
    (hnames : ∀ a ∈ artifacts, (Path.fileName? a.path).isSome)
    (hapart : artifacts.Pairwise V.Apart) :
    let failures := artifacts.filterMap Artifact.failure?
    let written := artifacts.countP (V.isStale s)
    ∃ s', V.Settled artifacts s s' ∧
      Ends (write artifacts) s (verdict failures ⟨written,artifacts.length - written⟩) s' ∧
      Ends (write artifacts) s' (verdict failures ⟨0,artifacts.length⟩) s' ∧
      Ends (compare artifacts) s' (verdict failures []) s' := by
  intro failures written
  obtain ⟨s',hwrite,hbrings⟩ := write_ends h hs hserved hapart
  have hsettled := hbrings.settled hapart hnames
  have hcurrent : ∀ a ∈ artifacts, V.isStale s' a = false := fun a => isStale_of_settled hsettled
  refine ⟨s',hsettled,?_,?_,?_⟩
  · have hcounts : failures = [] → (⟨written,artifacts.countP (V.isCurrent s)⟩ : WriteSummary) =
        ⟨written,artifacts.length - written⟩ :=
      fun hnone => by rw [countP_isCurrent hnone]
    exact verdict_congr hcounts ▸ hwrite
  · obtain ⟨s'',hagain,hnothing⟩ := write_ends h hbrings.sound hserved hapart
    rw [hnothing.eq_of_held hsettled.held] at hagain
    have hstale : artifacts.countP (V.isStale s') = 0 :=
      List.countP_eq_zero.mpr fun a ha => Bool.eq_false_iff.mp (hcurrent a ha)
    have hcounts : failures = [] → (⟨artifacts.countP (V.isStale s'),
        artifacts.countP (V.isCurrent s')⟩ : WriteSummary) = ⟨0,artifacts.length⟩ :=
      fun hnone => by rw [countP_isCurrent hnone, hstale, Nat.sub_zero]
    exact verdict_congr hcounts ▸ hagain
  · obtain ⟨s'',hcompare,hnothing⟩ := compare_ends h hbrings.sound hserved
    have hsame : s'' = s' :=
      hnothing.eq_of_held fun c hc => hsettled.held c (List.mem_append_right _ hc)
    have hdrifts : artifacts.filterMap (V.drift? s') = [] :=
      List.filterMap_eq_nil_iff.mpr fun a ha => drift?_eq_none.mpr (hcurrent a ha)
    rw [hsame, hdrifts] at hcompare
    exact hcompare

/-- The paths of artifacts and their unformatted siblings. -/
def pathsOf (artifacts : List Artifact) : List Path :=
  artifacts.flatMap fun a => [a.path,Path.unformatted a.path]

theorem mem_pathsOf {a : Artifact} (ha : a ∈ artifacts) :
    a.path ∈ pathsOf artifacts ∧ Path.unformatted a.path ∈ pathsOf artifacts :=
  ⟨List.mem_flatMap.mpr ⟨a,ha,by simp⟩,List.mem_flatMap.mpr ⟨a,ha,by simp⟩⟩

theorem write_settles_on_disk :
    let artifacts : List Artifact := [⟨"out/calls.rs",.formatted "new"⟩,
      ⟨"out/sub/types.rs",.rejected "raw" "unbalanced"⟩,⟨"out/nav.rs",.formatted "same"⟩]
    let fs : FileSystem := ⟨.ofList [("out/calls.rs","old"),("out/calls.rs.unformatted","stale"),
      ("out/nav.rs","same"),("other.rs","mine")],.ofList [("out",())]⟩
    let failures := [⟨"out/sub/types.rs","out/sub/types.rs.unformatted","unbalanced"⟩]
    ∃ fs', (FileSystem.view (pathsOf artifacts)).Settled artifacts fs fs' ∧
      Ends (write artifacts) fs (.error (.rejected failures)) fs' ∧
      Ends (write artifacts) fs' (.error (.rejected failures)) fs' ∧
      Ends (compare artifacts) fs' (.error (.rejected failures)) fs' := by
  intro artifacts fs failures
  have hplaced : FileSystem.Placed (pathsOf artifacts) := by
    constructor <;> decide +kernel
  have hapart : artifacts.Pairwise (FileSystem.view (pathsOf artifacts)).Apart := by
    decide +kernel
  have hclear : FileSystem.Clear (pathsOf artifacts) fs := by decide +kernel
  have hfailures : artifacts.filterMap Artifact.failure? = failures := by decide +kernel
  have hsettles := write_settles (FileSystem.serves hplaced) hclear (fun _ => mem_pathsOf)
    (by decide +kernel) hapart
  rw [hfailures] at hsettles
  exact hsettles

end Delivery
end ClientGen
