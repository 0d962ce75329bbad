import ClientGen.Proofs.Delivery.Service

/-! # Writing and comparing

On a file system that serves their paths, artifacts are written by setting one file after the other.
-/
namespace ClientGen

namespace Artifact

/-- What an accepted artifact is to hold. -/
def text? (a : Artifact) : Option String :=
  match a.rendered with
  | .formatted text => some text
  | .rejected .. => none

/-- What is reported of a rejected artifact. -/
def failure? (a : Artifact) : Option FormatFailure :=
  match a.rendered with
  | .formatted _ => none
  | .rejected _ message => some ⟨a.path,Path.unformatted a.path,message⟩

/-- The files that an accepted artifact sets, and what they come to hold. -/
def writes (a : Artifact) : List (Path × Option String) :=
  match a.rendered with
  | .formatted text => [(a.path,some text),(Path.unformatted a.path,none)]
  | .rejected .. => []

/-- The file that a rejected artifact sets. -/
def saves (a : Artifact) : List (Path × Option String) :=
  match a.rendered with
  | .formatted _ => []
  | .rejected raw _ => [(Path.unformatted a.path,some raw)]

end Artifact

namespace Delivery
variable {σ φ : Type} {α β : Type}

/-- From `s` the action comes to `s'` with this result. -/
def Ends (x : ExceptT DeliveryError (StateM σ) α) (s : σ) (r : Except DeliveryError α) (s' : σ) :
    Prop :=
  x.run.run s = (r,s')

namespace Ends
variable {x : ExceptT DeliveryError (StateM σ) α} {f : α → ExceptT DeliveryError (StateM σ) β}
variable {s s' s'' : σ}

theorem pure (a : α) (s : σ) : Ends (pure a) s (.ok a) s := rfl

theorem throw (e : DeliveryError) (s : σ) :
    Ends (MonadExcept.throw e : ExceptT DeliveryError (StateM σ) α) s (.error e) s := rfl

theorem bind {a : α} {r : Except DeliveryError β} (h : Ends x s (.ok a) s')
    (h' : Ends (f a) s' r s'') : Ends (x >>= f) s r s'' := by
  unfold Ends at *
  simp only [ExceptT.run_bind, StateT.run_bind, h]
  exact h'

theorem bind_error {e : DeliveryError} (h : Ends x s (.error e) s') :
    Ends (x >>= f) s (.error e) s' := by
  unfold Ends at *
  simp only [ExceptT.run_bind, StateT.run_bind, h]
  rfl

theorem lift {op : StateM σ α} {a : α} (h : op.run s = (a,s')) :
    Ends (liftM op) s (.ok a) s' := by
  unfold Ends
  simp only [ExceptT.run_liftM, StateT.run_map, h]
  rfl

theorem discard {a : α} (h : Ends x s (.ok a) s') : Ends (Functor.discard x) s (.ok ()) s' := by
  have hmap : Functor.discard x = x >>= fun _ => Pure.pure () := rfl
  rw [hmap]
  exact h.bind (.pure () s')

end Ends

variable {s s' : σ}

/-- The result of a delivery with some failures, which are reported before anything else. -/
def verdict (failures : List FormatFailure) (a : α) : Except DeliveryError α :=
  if failures.isEmpty then .ok a else .error (.rejected failures)

theorem Ends.bind_verdict {x : ExceptT DeliveryError (StateM σ) α}
    {f : α → ExceptT DeliveryError (StateM σ) β} {failures : List FormatFailure} {a : α} {b : β}
    (h : Ends x s (verdict failures a) s') (h' : Ends (f a) s' (.ok b) s') :
    Ends (x >>= f) s (verdict failures b) s' := by
  unfold verdict at *
  split at h
  · rw [if_pos ‹_›]
    exact h.bind h'
  · rw [if_neg ‹_›]
    exact h.bind_error

/-! ## One file -/

theorem orFail_ends {error : DeliveryError} {op : StateM σ Bool} (h : op.run s = (true,s')) :
    Ends (orFail error op) s (.ok ()) s' :=
  (Ends.lift h).bind (.pure () s')

variable [Storage (StateM σ)] {V : FileView σ φ} {served : Path → Prop} {p : Path}

theorem ensureFolderOf_ends (h : V.Serves served) (hs : V.sound s) (hp : served p) :
    ∃ s', Ends (ensureFolderOf p) s (.ok ()) s' ∧ V.sound s' ∧
      V.hasFolder s' (Path.parent? p) ∧ ∀ q, V.holds s' q = V.holds s q := by
  unfold ensureFolderOf
  cases hparent : Path.parent? p with
  | none => exact ⟨s,.pure () s,hs,(h.hasFolder hs).1,fun _ => rfl⟩
  | some folder =>
    by_cases hempty : folder = ""
    · subst hempty
      exact ⟨s,.pure () s,hs,(h.hasFolder hs).2,fun _ => rfl⟩
    · obtain ⟨s',hmade,hs',hfolder,hholds⟩ := h.makeFolder hs hp hparent hempty
      have hisEmpty : folder.isEmpty = false := by simpa using hempty
      simp only [hisEmpty, Bool.false_eq_true, if_false]
      exact ⟨s',orFail_ends hmade,hs',hfolder,hholds⟩

/-- A file that is there already is left alone. -/
theorem put_ends (h : V.Serves served) (hs : V.sound s) (hp : served p) (text : String) :
    ∃ s', Ends (put p text) s (.ok (decide (V.holds s p ≠ some text))) s' ∧
      V.Brings p (some text) s s' := by
  have hread := Ends.lift (h.read hs hp)
  by_cases hheld : V.holds s p = some text
  · refine ⟨s,hread.bind ?_,⟨hs,hheld,fun _ _ => rfl⟩,fun _ => rfl⟩
    rw [if_pos (Reading.held_eq_text.mpr hheld), hheld]
    simpa using Ends.pure false s
  · obtain ⟨m,hm,hmsound,hfolder,hholds⟩ := ensureFolderOf_ends h hs hp
    obtain ⟨s',hwritten,hset⟩ := h.write text hmsound hp hfolder
    refine ⟨s',hread.bind ?_,⟨hset.sound,hset.holds,fun q hq => ?_⟩,fun he => absurd he hheld⟩
    · rw [if_neg (mt Reading.held_eq_text.mp hheld), decide_eq_true hheld]
      exact hm.bind ((orFail_ends hwritten).bind (.pure true s'))
    · exact (hset.frame q hq).trans (hholds q)

theorem clearUnformatted_ends (h : V.Serves served) (hs : V.sound s)
    (hp : served (Path.unformatted p)) : ∃ s', Ends (clearUnformatted p) s (.ok ()) s' ∧
      V.Brings (Path.unformatted p) none s s' := by
  have hpresent := Ends.lift (h.isPresent hs hp)
  cases hheld : V.holds s (Path.unformatted p) with
  | none =>
    rw [hheld] at hpresent
    exact ⟨s,hpresent.bind (.pure () s),⟨hs,hheld,fun _ _ => rfl⟩,fun _ => rfl⟩
  | some text =>
    rw [hheld] at hpresent
    have hne : V.holds s (Path.unformatted p) ≠ none := by simp [hheld]
    obtain ⟨s',hremoved,hset⟩ := h.remove hs hp hne
    refine ⟨s',hpresent.bind (orFail_ends hremoved),hset,fun he => absurd he hne⟩

end Delivery

/-! ## All files -/

namespace FileView
variable {σ φ : Type} (V : FileView σ φ)

/-- Two artifacts are for different files, and neither is for the other's `.unformatted` file. -/
def Apart (a b : Artifact) : Prop :=
  ¬ V.Same a.path b.path ∧ ¬ V.Same a.path (Path.unformatted b.path) ∧
    ¬ V.Same (Path.unformatted a.path) b.path

instance [DecidableEq φ] : DecidableRel V.Apart := fun a b =>
  inferInstanceAs (Decidable (¬ V.Same a.path b.path ∧ ¬ V.Same a.path (Path.unformatted b.path) ∧
    ¬ V.Same (Path.unformatted a.path) b.path))

/-- An accepted artifact whose file has other contents or none. -/
def isStale (s : σ) (a : Artifact) : Bool :=
  a.text?.any fun text => V.holds s a.path != some text

/-- An accepted artifact whose file holds it. -/
def isCurrent (s : σ) (a : Artifact) : Bool :=
  a.text?.any fun text => V.holds s a.path == some text

def drift? (s : σ) (a : Artifact) : Option Drift :=
  a.text?.bind fun text =>
    if V.holds s a.path = some text then none else some ⟨a.path,V.holds s a.path,text⟩

end FileView

namespace Delivery
variable {σ φ : Type} [Storage (StateM σ)] {V : FileView σ φ} {served : Path → Prop} {s s' : σ}
variable {artifacts : List Artifact}

theorem writeFormatted_ends (h : V.Serves served) (hs : V.sound s)
    (hserved : ∀ a ∈ artifacts, served a.path ∧ served (Path.unformatted a.path))
    (hapart : artifacts.Pairwise V.Apart) :
    ∃ s', Ends (writeFormatted artifacts) s
        (.ok ⟨artifacts.countP (V.isStale s),artifacts.countP (V.isCurrent s)⟩) s' ∧
      V.BringsAll (artifacts.flatMap Artifact.writes) s s' := by
  induction artifacts generalizing s with
  | nil => exact ⟨s,.pure _ s,hs,rfl⟩
  | cons a rest ih =>
    obtain ⟨hfirst,hrest⟩ := List.forall_mem_cons.mp hserved
    obtain ⟨hnew,hlater⟩ := List.pairwise_cons.mp hapart
    obtain ⟨path,rendered⟩ := a
    cases rendered with
    | rejected raw message =>
      obtain ⟨s',hends,hbrings⟩ := ih hs hrest hlater
      exact ⟨s',hends,hbrings⟩
    | formatted text =>
      obtain ⟨m,hput,hm⟩ := put_ends h hs hfirst.1 text
      obtain ⟨n,hclear,hn⟩ := clearUnformatted_ends h hm.1.sound hfirst.2
      obtain ⟨s',hends,hbrings⟩ := ih hn.1.sound hrest hlater
      -- the files of the rest still hold what they held at first
      have hkept : ∀ b ∈ rest, V.holds n b.path = V.holds s b.path := by
        intro b hb
        obtain ⟨hpath,_,hsibling⟩ := hnew b hb
        exact (hn.1.frame _ fun he => hsibling he.symm).trans
          (hm.1.frame _ fun he => hpath he.symm)
      have hstale : rest.countP (V.isStale n) = rest.countP (V.isStale s) := by
        refine List.countP_congr fun b hb => ?_
        rw [FileView.isStale, FileView.isStale, hkept b hb]
      have hcurrent : rest.countP (V.isCurrent n) = rest.countP (V.isCurrent s) := by
        refine List.countP_congr fun b hb => ?_
        rw [FileView.isCurrent, FileView.isCurrent, hkept b hb]
      refine ⟨s',?_,m,hm,n,hn,hbrings⟩
      refine hput.bind (hclear.bind (hends.bind ?_))
      rw [hstale, hcurrent]
      rw [List.countP_cons, List.countP_cons]
      by_cases hheld : V.holds s path = some text
      · simpa [FileView.isStale, FileView.isCurrent, Artifact.text?, hheld] using Ends.pure _ s'
      · simpa [FileView.isStale, FileView.isCurrent, Artifact.text?, hheld] using Ends.pure _ s'

theorem saveRejected_ends (h : V.Serves served) (hs : V.sound s)
    (hserved : ∀ a ∈ artifacts, served (Path.unformatted a.path)) :
    ∃ s', Ends (saveRejected artifacts) s (.ok (artifacts.filterMap Artifact.failure?)) s' ∧
      V.BringsAll (artifacts.flatMap Artifact.saves) s s' := by
  induction artifacts generalizing s with
  | nil => exact ⟨s,.pure _ s,hs,rfl⟩
  | cons a rest ih =>
    obtain ⟨hfirst,hrest⟩ := List.forall_mem_cons.mp hserved
    obtain ⟨path,rendered⟩ := a
    cases rendered with
    | formatted text =>
      obtain ⟨s',hends,hbrings⟩ := ih hs hrest
      exact ⟨s',hends,hbrings⟩
    | rejected raw message =>
      obtain ⟨m,hput,hm⟩ := put_ends h hs hfirst raw
      obtain ⟨s',hends,hbrings⟩ := ih hm.1.sound hrest
      exact ⟨s',hput.discard.bind (hends.bind (.pure _ s')),m,hm,hbrings⟩

theorem failIfRejected_ends (h : V.Serves served) (hs : V.sound s)
    (hserved : ∀ a ∈ artifacts, served (Path.unformatted a.path)) :
    ∃ s', Ends (failIfRejected artifacts) s
        (verdict (artifacts.filterMap Artifact.failure?) ()) s' ∧
      V.BringsAll (artifacts.flatMap Artifact.saves) s s' := by
  obtain ⟨s',hends,hbrings⟩ := saveRejected_ends h hs hserved
  refine ⟨s',hends.bind ?_,hbrings⟩
  unfold verdict
  split
  · exact .pure () s'
  · exact .throw _ s'

/-- Writing sets the files of accepted artifacts, then those of rejected ones. -/
theorem write_ends (h : V.Serves served) (hs : V.sound s)
    (hserved : ∀ a ∈ artifacts, served a.path ∧ served (Path.unformatted a.path))
    (hapart : artifacts.Pairwise V.Apart) :
    ∃ s', Ends (write artifacts) s (verdict (artifacts.filterMap Artifact.failure?)
        ⟨artifacts.countP (V.isStale s),artifacts.countP (V.isCurrent s)⟩) s' ∧
      V.BringsAll (artifacts.flatMap Artifact.writes ++ artifacts.flatMap Artifact.saves) s s' := by
  obtain ⟨m,hwrite,hm⟩ := writeFormatted_ends h hs hserved hapart
  obtain ⟨s',hfail,hbrings⟩ := failIfRejected_ends h hm.sound fun a ha => (hserved a ha).2
  exact ⟨s',hwrite.bind (hfail.bind_verdict (.pure _ s')),hm.append hbrings⟩

theorem driftOf?_ends (h : V.Serves served) (hs : V.sound s) {path : Path} (hp : served path)
    (text : String) : Ends (driftOf? path text) s
      (.ok (if V.holds s path = some text then none else some ⟨path,V.holds s path,text⟩)) s := by
  refine (Ends.lift (h.read hs hp)).bind ?_
  cases hheld : V.holds s path with
  | none => exact .pure _ s
  | some current =>
    by_cases he : current = text
    · simpa [Reading.held, he] using Ends.pure _ s
    · simpa [Reading.held, he] using Ends.pure _ s

theorem drifts_ends (h : V.Serves served) (hs : V.sound s)
    (hserved : ∀ a ∈ artifacts, served a.path) :
    Ends (drifts artifacts) s (.ok (artifacts.filterMap (V.drift? s))) s := by
  induction artifacts with
  | nil => exact .pure _ s
  | cons a rest ih =>
    obtain ⟨hfirst,hrest⟩ := List.forall_mem_cons.mp hserved
    obtain ⟨path,rendered⟩ := a
    cases rendered with
    | rejected raw message => exact ih hrest
    | formatted text =>
      refine (driftOf?_ends h hs hfirst text).bind ((ih hrest).bind ?_)
      by_cases hheld : V.holds s path = some text
      · simpa [FileView.drift?, Artifact.text?, hheld] using Ends.pure _ s
      · simpa [FileView.drift?, Artifact.text?, hheld] using Ends.pure _ s

/-- Comparing sets the files of rejected artifacts only. -/
theorem compare_ends (h : V.Serves served) (hs : V.sound s)
    (hserved : ∀ a ∈ artifacts, served a.path ∧ served (Path.unformatted a.path)) :
    ∃ s', Ends (compare artifacts) s (verdict (artifacts.filterMap Artifact.failure?)
        (artifacts.filterMap (V.drift? s'))) s' ∧
      V.BringsAll (artifacts.flatMap Artifact.saves) s s' := by
  obtain ⟨s',hfail,hbrings⟩ := failIfRejected_ends h hs fun a ha => (hserved a ha).2
  have hdrifts := drifts_ends h hbrings.sound fun a ha => (hserved a ha).1
  exact ⟨s',hfail.bind_verdict hdrifts,hbrings⟩

end Delivery
end ClientGen
