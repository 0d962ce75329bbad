import ClientGen.CommandLine.Outcome
import ClientGen.Proofs.Delivery.Settled
import ClientGen.Proofs.Passes

/-! # What runs come to

A pass with rejected files does all it can for the others and does not keep later passes from
running. So the changes of a run are those of all its passes, and it ends with status 0 if none of
them has anything to report.
-/
namespace ClientGen.Run
variable {σ φ : Type} {V : FileView σ φ} {check : Bool} {artifacts later : List Artifact}
variable {s m s' : σ}

/-- The files that an artifact sets. Comparing saves rejected ones only. -/
def changes (check : Bool) (a : Artifact) : List (Path × Option String) :=
  if check then a.saves else a.writes ++ a.saves

/-- What comparing finds. -/
def drifts (V : FileView σ φ) (check : Bool) (s : σ) (artifacts : List Artifact) : List Drift :=
  if check then artifacts.filterMap (V.drift? s) else []

/-- What comes of writing or comparing artifacts. -/
structure Reports (V : FileView σ φ) (check : Bool) (artifacts : List Artifact) (s : σ) (r : Report)
    (s' : σ) : Prop where
  brings : ∃ cs, V.BringsAll cs s s' ∧ ∀ c, c ∈ cs ↔ ∃ a ∈ artifacts, c ∈ changes check a
  stopped : r.stopped = none
  rejected : r.rejected = artifacts.filterMap Artifact.failure?
  kept : check = true → r.rejected = [] → s' = s
  /-- With rejected artifacts, drifts of others may or may not be reported. -/
  drifts : r.rejected = [] → r.drifts = drifts V check s artifacts

/-- The last pass was reached, and the status is 0 or 1 as it went well or not. -/
structure Ended (r : Report) (well : Prop) : Prop where
  stopped : r.stopped = none
  status : well ∧ (CommandLine.Outcome.ofReport r).status = 0 ∨
    ¬ well ∧ (CommandLine.Outcome.ofReport r).status = 1

namespace Reports
variable {r r' : Report}

theorem append (h : Reports V check artifacts s r m) (h' : Reports V check later m r' s') :
    Reports V check (artifacts ++ later) s (r.append r') s' := by
  have hrejected : (r.append r').rejected = [] → r.rejected = [] ∧ r'.rejected = [] :=
    List.append_eq_nil_iff.mp
  constructor
  · obtain ⟨cs,hbrings,hcs⟩ := h.brings
    obtain ⟨cs',hbrings',hcs'⟩ := h'.brings
    refine ⟨cs ++ cs',hbrings.append hbrings',fun c => ?_⟩
    simp only [List.mem_append, hcs, hcs', or_and_right, exists_or]
  · exact h'.stopped
  · rw [List.filterMap_append, ← h.rejected, ← h'.rejected]
    rfl
  · intro hcheck hnone
    obtain ⟨hfirst,hrest⟩ := hrejected hnone
    exact (h'.kept hcheck hrest).trans (h.kept hcheck hfirst)
  · intro hnone
    obtain ⟨hfirst,hrest⟩ := hrejected hnone
    have hsplit : (r.append r').drifts = r.drifts ++ r'.drifts := rfl
    rw [hsplit, h.drifts hfirst, h'.drifts hrest]
    cases hcheck : check with
    | false => rfl
    | true =>
      obtain rfl := h.kept hcheck hfirst
      exact List.filterMap_append.symm

theorem isClean_iff (h : Reports V check artifacts s r s') : r.isClean = true ↔
    (∀ a ∈ artifacts, ∃ text, a.rendered = .formatted text) ∧
      Run.drifts V check s artifacts = [] := by
  rw [← FileView.failures_eq_nil, ← h.rejected, Report.isClean, h.stopped, Option.isNone_none,
    Bool.and_true, Bool.and_eq_true, List.isEmpty_iff, List.isEmpty_iff, and_comm]
  exact and_congr_right fun hnone => by rw [h.drifts hnone]

theorem ended (h : Reports V check artifacts s r s') {well : Prop}
    (hwell : r.isClean = true ↔ well) : Ended r well := by
  refine ⟨h.stopped,?_⟩
  rw [CommandLine.Outcome.ofReport, ← hwell]
  cases r.isClean <;> simp

theorem isClean_written (h : Reports V false artifacts s r s') :
    r.isClean = true ↔ ∀ a ∈ artifacts, ∃ text, a.rendered = .formatted text := by
  rw [h.isClean_iff]
  exact and_iff_left rfl

theorem isClean_compared (h : Reports V true artifacts s r s') : r.isClean = true ↔
    ∀ a ∈ artifacts, ∃ text, a.rendered = .formatted text ∧ V.holds s a.path = some text := by
  have hdrifts : Run.drifts V true s artifacts = [] ↔ ∀ a ∈ artifacts, V.isStale s a = false :=
    List.filterMap_eq_nil_iff.trans (forall₂_congr fun _ _ => Delivery.drift?_eq_none)
  rw [h.isClean_iff, hdrifts, ← forall₂_and]
  refine forall₂_congr fun a _ => ?_
  unfold FileView.isStale Artifact.text?
  cases a.rendered <;> simp

/-- Comparing changes nothing but the files in which rejected artifacts are kept. -/
theorem frame (h : Reports V true artifacts s r s') {q : Path}
    (hq : ∀ a ∈ artifacts, ∀ raw message, a.rendered = .rejected raw message →
      ¬ V.Same q (Path.unformatted a.path)) : V.holds s' q = V.holds s q := by
  obtain ⟨cs,hbrings,hcs⟩ := h.brings
  refine hbrings.frame fun c hc => ?_
  obtain ⟨a,ha,hac⟩ := (hcs c).mp hc
  obtain ⟨raw,message,hrejected,rfl⟩ := FileView.mem_saves.mp hac
  exact hq a ha raw message hrejected

/-- All that could be written is there. -/
theorem holds (h : Reports V false artifacts s r s') (hapart : artifacts.Pairwise V.Apart)
    {a : Artifact} (ha : a ∈ artifacts) {text : String} (haccepted : a.rendered = .formatted text) :
    V.holds s' a.path = some text := by
  obtain ⟨cs,hbrings,hcs⟩ := h.brings
  refine hbrings.holds_path hapart (fun c => (hcs c).mp) ha haccepted ((hcs _).mpr ⟨a,ha,?_⟩)
  exact List.mem_append_left _ (FileView.mem_writes.mpr ⟨text,haccepted,.inl rfl⟩)

end Reports

/-! ## Passes -/

variable [Storage (StateM σ)] {served : Path → Prop}

theorem deliver_ends (h : V.Serves served) (hs : V.sound s)
    (hserved : ∀ a ∈ artifacts, served a.path ∧ served (Path.unformatted a.path))
    (hapart : artifacts.Pairwise V.Apart) (check : Bool) :
    ∃ s', Delivery.Ends (deliver check artifacts) s (Delivery.verdict
        (artifacts.filterMap Artifact.failure?) (drifts V check s' artifacts)) s' ∧
      ∃ cs, V.BringsAll cs s s' ∧ ∀ c, c ∈ cs ↔ ∃ a ∈ artifacts, c ∈ changes check a := by
  cases check with
  | true =>
    obtain ⟨s',hends,hbrings⟩ := Delivery.compare_ends h hs hserved
    exact ⟨s',hends,_,hbrings,fun _ => List.mem_flatMap⟩
  | false =>
    obtain ⟨s',hends,hbrings⟩ := Delivery.write_ends h hs hserved hapart
    have hdiscarded : Delivery.Ends (discard (Delivery.write artifacts)) s
        (Delivery.verdict (artifacts.filterMap Artifact.failure?) ()) s' :=
      hends.bind_verdict (.pure () s')
    exact ⟨s',hdiscarded.bind_verdict (.pure [] s'),_,hbrings,fun _ => FileView.mem_changesOf⟩

/-- Rejected files are reported in place of drifts, and others can follow. -/
theorem passReport_verdict (warnings : List Warning) (failures : List FormatFailure)
    (drifts : List Drift) : passReport warnings (Delivery.verdict failures drifts) =
      ⟨if failures.isEmpty then drifts else [],failures,none,warnings⟩ := by
  cases failures <;> rfl

/-- The artifacts of passes in the order in which they are delivered. -/
def artifactsOf (g : Generator) (format : Formatter) (passes : List (Sdk.Pass × Path)) :
    List Artifact :=
  passes.flatMap fun p => (g.artifacts p.1 p.2 format).value

theorem deliver_reports (h : V.Serves served) (hs : V.sound s)
    (hserved : ∀ a ∈ artifacts, served a.path ∧ served (Path.unformatted a.path))
    (hapart : artifacts.Pairwise V.Apart) (check : Bool) (warnings : List Warning) :
    ∃ outcome s', (deliver check artifacts : ExceptT DeliveryError (StateM σ) _).run.run s =
      (outcome,s') ∧ Reports V check artifacts s (passReport warnings outcome) s' := by
  obtain ⟨s',hends,cs,hbrings,hcs⟩ := deliver_ends h hs hserved hapart check
  refine ⟨_,s',hends,?_⟩
  rw [passReport_verdict]
  have hkept : check = true → artifacts.filterMap Artifact.failure? = [] → s' = s := by
    rintro rfl hnone
    have hnothing : cs = [] := by
      refine List.eq_nil_iff_forall_not_mem.mpr fun c hc => ?_
      obtain ⟨a,ha,hac⟩ := (hcs c).mp hc
      obtain ⟨text,haccepted⟩ := FileView.failures_eq_nil.mp hnone a ha
      obtain ⟨raw,message,hrejected,_⟩ := FileView.mem_saves.mp hac
      exact Rendered.noConfusion (haccepted.symm.trans hrejected)
    rw [hnothing] at hbrings
    exact hbrings.2
  refine ⟨⟨cs,hbrings,hcs⟩,rfl,rfl,hkept,fun hnone => ?_⟩
  have hnone' : artifacts.filterMap Artifact.failure? = [] := hnone
  rw [hnone']
  cases check with
  | false => rfl
  | true => exact congrArg (drifts V true · artifacts) (hkept rfl hnone')

theorem passes_run (h : V.Serves served) (g : Generator) (format : Formatter)
    {ps : List (Sdk.Pass × Path)} (hs : V.sound s)
    (hserved : ∀ a ∈ artifactsOf g format ps, served a.path ∧ served (Path.unformatted a.path))
    (hapart : (artifactsOf g format ps).Pairwise V.Apart) (check : Bool) :
    ∃ r s', (passes g check format ps : StateM σ Report).run s = (r,s') ∧
      Reports V check (artifactsOf g format ps) s r s' := by
  induction ps generalizing s with
  | nil =>
    refine ⟨.empty,s,rfl,⟨⟨[],⟨hs,rfl⟩,?_⟩,rfl,rfl,fun _ _ => rfl,fun _ => ?_⟩⟩
    · simp [artifactsOf]
    · cases check <;> rfl
  | cons p rest ih =>
    obtain ⟨pass,output⟩ := p
    have hsplit : artifactsOf g format ((pass,output) :: rest) =
        (g.artifacts pass output format).value ++ artifactsOf g format rest := rfl
    rw [hsplit] at hserved hapart ⊢
    obtain ⟨hfirst,hlater⟩ := List.forall_mem_append.mp hserved
    obtain ⟨hpass,hrest,_⟩ := List.pairwise_append.mp hapart
    obtain ⟨outcome,m,hdeliver,hreports⟩ := deliver_reports h hs hfirst hpass check
      (g.artifacts pass output format).warnings
    obtain ⟨cs,hbrings,_⟩ := hreports.brings
    obtain ⟨r,s',hrun,hreports'⟩ := ih hbrings.sound hlater hrest
    refine ⟨_,s',?_,hreports.append hreports'⟩
    simp only [passes, StateT.run_bind, hdeliver]
    show StateT.run (ite _ _ _) m = _
    rw [hreports.stopped, Option.isSome_none, if_neg Bool.false_ne_true, StateT.run_bind, hrun]
    rfl

/-- A run that compares ends well if every artifact is accepted and in place, and changes no file but
the siblings of rejected artifacts. A run that writes ends well if every artifact is accepted, and
has written the accepted ones in any case. -/
theorem passes_ended (h : V.Serves served) (g : Generator) (format : Formatter)
    (ps : List (Sdk.Pass × Path)) (hs : V.sound s)
    (hserved : ∀ a ∈ artifactsOf g format ps, served a.path ∧ served (Path.unformatted a.path))
    (hapart : (artifactsOf g format ps).Pairwise V.Apart) :
    let artifacts := artifactsOf g format ps
    (∃ r s', (passes g true format ps : StateM σ Report).run s = (r,s') ∧
      Ended r (∀ a ∈ artifacts, ∃ text,
        a.rendered = .formatted text ∧ V.holds s a.path = some text) ∧
      ∀ q, (∀ a ∈ artifacts, ∀ raw message, a.rendered = .rejected raw message →
        ¬ V.Same q (Path.unformatted a.path)) → V.holds s' q = V.holds s q) ∧
    ∃ r s', (passes g false format ps : StateM σ Report).run s = (r,s') ∧
      Ended r (∀ a ∈ artifacts, ∃ text, a.rendered = .formatted text) ∧
      ∀ a ∈ artifacts, ∀ text, a.rendered = .formatted text → V.holds s' a.path = some text := by
  intro artifacts
  constructor
  · obtain ⟨r,s',hrun,hreports⟩ := passes_run h g format hs hserved hapart true
    exact ⟨r,s',hrun,hreports.ended hreports.isClean_compared,fun _ => hreports.frame⟩
  · obtain ⟨r,s',hrun,hreports⟩ := passes_run h g format hs hserved hapart false
    refine ⟨r,s',hrun,hreports.ended hreports.isClean_written,fun a ha text => ?_⟩
    exact hreports.holds hapart ha

/-- One model and nothing else. -/
def zones : Generator where
  document :=
    { paths := .empty
      components := some ⟨.ofList [("Zone",.object [("type",.text "object")])],.empty,.empty⟩ }
  config := Generator.defaultConfig
  paths := .default

def rejectZone : Formatter := fun m =>
  if m.items.any fun | .struct s => s.name == "Zone" | _ => false then .error "expected identifier"
  else .ok "formatted"

def zonePasses : List (Sdk.Pass × Path) :=
  [(.models,"sdk/models"),(.services,"sdk/services"),(.builder,"sdk/builder.rs")]

def zoneRun (check : Bool) : StateM FileSystem Report :=
  passes zones check rejectZone zonePasses

theorem passes_ended_zones :
    let artifacts := artifactsOf zones rejectZone zonePasses
    let V := FileSystem.view (Delivery.pathsOf artifacts)
    let fs : FileSystem :=
      ⟨.ofList [("sdk/models/zone.rs","old")],.ofList [("sdk",()),("sdk/models",())]⟩
    (∃ r fs', (zoneRun true).run fs = (r,fs') ∧
      (CommandLine.Outcome.ofReport r).status = 1 ∧
      V.holds fs' "sdk/models/zone.rs" = some "old") ∧
    ∃ r fs', (zoneRun false).run fs = (r,fs') ∧
      (CommandLine.Outcome.ofReport r).status = 1 ∧
      ∃ text, V.holds fs' "sdk/builder.rs" = some text := by
  intro artifacts V fs
  have hplaced : FileSystem.Placed (Delivery.pathsOf artifacts) := by
    constructor <;> decide +kernel
  have hclear : FileSystem.Clear (Delivery.pathsOf artifacts) fs := by decide +kernel
  have hapart : artifacts.Pairwise V.Apart := by decide +kernel
  have hrejected : ¬ ∀ a ∈ artifacts, ∃ text, a.rendered = .formatted text := by
    rw [← FileView.failures_eq_nil]
    decide +kernel
  have hbuilder : ∃ a ∈ artifacts, a.path = "sdk/builder.rs" ∧ a.text?.isSome := by decide +kernel
  have hkept : ∀ a ∈ artifacts, ¬ V.Same "sdk/models/zone.rs" (Path.unformatted a.path) := by
    decide +kernel
  obtain ⟨⟨r,fs',hrun,hended,hframe⟩,r',fs'',hrun',hended',hwritten⟩ :=
    passes_ended (FileSystem.serves hplaced) zones rejectZone zonePasses hclear
      (fun _ => Delivery.mem_pathsOf) hapart
  refine ⟨⟨r,fs',hrun,?_,?_⟩,r',fs'',hrun',?_,?_⟩
  · have hill := hended.status.resolve_left fun hwell =>
      hrejected fun a ha => (hwell.1 a ha).imp fun _ => And.left
    exact hill.2
  · have hold : V.holds fs "sdk/models/zone.rs" = some "old" := by decide +kernel
    rw [hframe _ fun a ha _ _ _ => hkept a ha, hold]
  · exact (hended'.status.resolve_left fun hwell => hrejected hwell.1).2
  · obtain ⟨⟨path,rendered⟩,ha,rfl,hisSome⟩ := hbuilder
    cases rendered with
    | formatted text => exact ⟨text,hwritten _ ha text rfl⟩
    | rejected raw message => simp [Artifact.text?] at hisSome

end ClientGen.Run
