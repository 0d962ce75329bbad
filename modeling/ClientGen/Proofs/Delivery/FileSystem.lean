import ClientGen.Proofs.Data.Dict
import ClientGen.Proofs.Delivery.Service
import ClientGen.Proofs.Delivery.Siblings

/-! # File systems as values

A place in a file system is told by the names on the way to it. Paths that lead to different places,
none of them on the way to another, are served where no folder stands in such a place and no file on
the way.
-/
namespace ClientGen.FileSystem

/-! ## Places -/

/-- Names that can be joined by slashes without loss. -/
def Slashless (names : List String) : Prop :=
  ∀ n ∈ names, '/' ∉ n.toList

theorem Slashless.of_isPrefix {names place : List String} (h : Slashless place)
    (hpre : names <+: place) : Slashless names :=
  fun n hn => h n (hpre.subset hn)

theorem key_injective {names names' : List String} (h : Slashless names) (h' : Slashless names')
    (hne : names ≠ []) (hne' : names' ≠ []) (hkey : key names = key names') : names = names' := by
  have hsplit : ∀ {ns : List String}, Slashless ns → ns ≠ [] →
      (key ns).toList.splitOn '/' = ns.map String.toList := by
    intro ns hns hnonempty
    have htext : (key ns).toList = ['/'].intercalate (ns.map String.toList) :=
      String.toList_intercalate
    rw [htext, List.splitOn_intercalate]
    · simpa [Slashless] using hns
    · simpa using hnonempty
  have htexts : names.map String.toList = names'.map String.toList := by
    rw [← hsplit h hne, ← hsplit h' hne', hkey]
  exact List.map_injective_iff.mpr (fun _ _ => String.toList_inj.mp) htexts

theorem mem_wayTo {names place : List String} :
    names ∈ wayTo place ↔ names ≠ [] ∧ names <+: place := by
  induction place generalizing names with
  | nil => simp [wayTo]
  | cons n rest ih =>
    rw [wayTo, List.mem_cons, List.mem_map]
    constructor
    · rintro (rfl | ⟨names,hmem,rfl⟩)
      · exact ⟨by simp,List.prefix_append [n] rest⟩
      · exact ⟨by simp,List.cons_prefix_cons.mpr ⟨rfl,(ih.mp hmem).2⟩⟩
    · rintro ⟨hne,hpre⟩
      cases names with
      | nil => exact absurd rfl hne
      | cons m names =>
        obtain ⟨rfl,hrest⟩ := List.cons_prefix_cons.mp hpre
        by_cases hnil : names = []
        · exact .inl (by rw [hnil])
        · exact .inr ⟨names,ih.mpr ⟨hnil,hrest⟩,rfl⟩

/-- The folder that a parent leads to; all begins at the top. -/
def folderOf (parent : Option Path) : Option (List String) :=
  (Path.components (parent.getD "")).foldlM step []

theorem slashless_of_step {names names' : List String} {c : Path.Component}
    (h : step names c = some names') (hnames : Slashless names)
    (hc : ∀ name, c.part = .name name → '/' ∉ name.toList) : Slashless names' := by
  unfold step at h
  split at h
  · simp at h
  · obtain rfl := Option.some.inj h
    exact hnames
  · split at h
    · simp at h
    · obtain rfl := Option.some.inj h
      exact fun n hn => hnames n (List.dropLast_subset _ hn)
  · rename_i name hname
    obtain rfl := Option.some.inj h
    intro n hn
    rcases List.mem_append.mp hn with hn | hn
    · exact hnames n hn
    · exact List.mem_singleton.mp hn ▸ hc name hname

theorem slashless_of_foldlM {cs : List Path.Component} {names place : List String}
    (h : cs.foldlM step names = some place) (hnames : Slashless names)
    (hcs : ∀ c ∈ cs, ∀ name, c.part = .name name → '/' ∉ name.toList) : Slashless place := by
  induction cs generalizing names with
  | nil => exact Option.some.inj h ▸ hnames
  | cons c rest ih =>
    rw [List.foldlM_cons] at h
    obtain ⟨next,hnext,hrest⟩ := Option.bind_eq_some_iff.mp h
    obtain ⟨hc,hlater⟩ := List.forall_mem_cons.mp hcs
    exact ih hrest (slashless_of_step hnext hnames hc) hlater

theorem slashless_folderOf {parent : Option Path} {names : List String}
    (h : folderOf parent = some names) : Slashless names :=
  slashless_of_foldlM h (by simp [Slashless]) fun _ hc _ =>
    Path.slash_not_mem_of_mem_components hc

/-- A file's place: its name in a folder. -/
structure Place where
  folder : List String
  name : String
  deriving DecidableEq

def Place.names (a : Place) : List String :=
  a.folder ++ [a.name]

/-- The place of a path that ends in a name, if it leads to one. -/
def place? (p : Path) : Option Place :=
  (folderOf (Path.parent? p)).bind fun folder => (Path.fileName? p).map fun name => ⟨folder,name⟩

variable {p q : Path} {a b : Place}

theorem Place.names_ne_nil (a : Place) : a.names ≠ [] :=
  List.append_ne_nil_of_right_ne_nil _ (List.cons_ne_nil _ _)

theorem place?_eq_some : place? p = some a ↔
    Path.fileName? p = some a.name ∧ folderOf (Path.parent? p) = some a.folder := by
  obtain ⟨folder,name⟩ := a
  unfold place?
  cases folderOf (Path.parent? p) <;> cases Path.fileName? p <;> simp [and_comm]

theorem slashless_names (h : place? p = some a) : Slashless a.names := by
  obtain ⟨hname,hfolder⟩ := place?_eq_some.mp h
  intro n hn
  rcases List.mem_append.mp hn with hn | hn
  · exact slashless_folderOf hfolder n hn
  · exact List.mem_singleton.mp hn ▸ Path.slash_not_mem_of_fileName? hname

theorem locate_of_place (h : place? p = some a) : locate p = some a.names := by
  obtain ⟨hname,hfolder⟩ := place?_eq_some.mp h
  obtain ⟨f,start,stop,hparent,hcomponents,_⟩ := Path.exists_parent hname
  have hne : p.isEmpty = false := by
    cases hempty : p.isEmpty with
    | false => rfl
    | true =>
      rw [String.isEmpty_iff] at hempty
      subst hempty
      rw [Path.components_empty] at hcomponents
      simp at hcomponents
  rw [hparent, folderOf, Option.getD_some] at hfolder
  rw [locate, hne, hcomponents, List.foldlM_append, hfolder]
  rfl

/-! ## Paths of a delivery -/

variable {paths : List Path} {fs fs' : FileSystem}

/-- The paths lead to places none of which is on the way to another. -/
structure Placed (paths : List Path) : Prop where
  isSome : ∀ p ∈ paths, (place? p).isSome
  notFolder : ∀ p ∈ paths, asksForFolder p = false
  apart : ∀ p ∈ paths, ∀ a ∈ place? p, ∀ q ∈ paths, ∀ b ∈ place? q, ¬ a.names <+: b.folder

/-- Nothing stands in the way of an operation on the paths. -/
def Clear (paths : List Path) (fs : FileSystem) : Prop :=
  ∀ p ∈ paths, ∀ a ∈ place? p, fs.hasFolder a.names = false ∧ fs.isBlocked a.folder = false

instance : Decidable (Clear paths fs) :=
  inferInstanceAs (Decidable (∀ p ∈ paths, ∀ a ∈ place? p,
    fs.hasFolder a.names = false ∧ fs.isBlocked a.folder = false))

/-- What the paths of a delivery hold. -/
def view (paths : List Path) : FileView FileSystem (Option (List String)) where
  holds fs p := (place? p).bind fun a => fs.files.get? (key a.names)
  folder := folderOf
  hasFolder fs parent := ∃ names, folderOf parent = some names ∧ fs.hasFolder names = true
  sound := Clear paths

theorem holds_of_place (h : place? p = some a) (fs : FileSystem) :
    (view paths).holds fs p = fs.files.get? (key a.names) := by
  simp only [view, h, Option.bind_some]

theorem same_of_key_eq (h : place? p = some a) (h' : place? q = some b)
    (hkey : key a.names = key b.names) : (view paths).Same p q := by
  have hnames : a.names = b.names := key_injective (slashless_names h) (slashless_names h')
    a.names_ne_nil b.names_ne_nil hkey
  obtain ⟨hfolder,hname⟩ := List.append_inj' hnames rfl
  obtain ⟨hp,hparent⟩ := place?_eq_some.mp h
  obtain ⟨hq,hparent'⟩ := place?_eq_some.mp h'
  constructor
  · rw [hp, hq, List.singleton_inj.mp hname]
  · show folderOf _ = folderOf _
    rw [hparent, hparent', hfolder]

/-- A change at the key of one path is a change of its file only. -/
theorem holds_frame (h : place? p = some a)
    (hfiles : ∀ k, k ≠ key a.names → fs'.files.get? k = fs.files.get? k)
    (hq : ¬ (view paths).Same q p) : (view paths).holds fs' q = (view paths).holds fs q := by
  cases hplace : place? q with
  | none => simp only [view, hplace, Option.bind_none]
  | some b =>
    rw [holds_of_place hplace, holds_of_place hplace]
    exact hfiles _ fun hkey => hq (same_of_key_eq hplace h hkey)

/-- No place of a path has the key of a folder on the way to a path. -/
theorem Placed.key_ne (h : Placed paths) (hp : p ∈ paths) (ha : place? p = some a) (hq : q ∈ paths)
    (hb : place? q = some b) {names : List String} (hnames : names ∈ wayTo b.folder) :
    key names ≠ key a.names := by
  intro hkey
  obtain ⟨hne,hpre⟩ := mem_wayTo.mp hnames
  have hslashless : Slashless names :=
    (slashless_names hb).of_isPrefix (hpre.trans (List.prefix_append _ _))
  have heq : names = a.names :=
    key_injective hslashless (slashless_names ha) hne a.names_ne_nil hkey
  exact h.apart p hp a ha q hq b hb (heq ▸ hpre)

/-! ## Operations -/

theorem hasFile_eq (fs : FileSystem) (names : List String) :
    fs.hasFile names = (fs.files.get? (key names)).isSome := rfl

theorem isBlocked_eq_false {names : List String} :
    fs.isBlocked names = false ↔ ∀ place ∈ wayTo names, fs.hasFile place = false := by
  simp [isBlocked, List.any_eq_false]

theorem contains_foldl_insert (places : List (List String)) (d : Dict Unit) (k : String) :
    (places.foldl (fun d n => d.insert (key n) ()) d).contains k = true ↔
      k ∈ places.map key ∨ d.contains k = true := by
  induction places generalizing d with
  | nil => simp
  | cons place rest ih =>
    have hinsert : (d.insert (key place) ()).contains k = true ↔
        k = key place ∨ d.contains k = true := by
      by_cases h : k = key place <;> simp [Dict.contains, Dict.get?_insert, h]
    rw [List.foldl_cons, ih, List.map_cons, List.mem_cons, hinsert, or_assoc, or_left_comm]

theorem read_eq (h : Placed paths) (hs : Clear paths fs) (hp : p ∈ paths) :
    fs.read p = .held ((view paths).holds fs p) := by
  obtain ⟨a,ha⟩ := Option.isSome_iff_exists.mp (h.isSome p hp)
  obtain ⟨hfolder,hway⟩ := hs p hp a ha
  rw [holds_of_place ha, read, locate_of_place ha]
  simp only [hfolder, Bool.false_eq_true, if_false, h.notFolder p hp]
  cases hfile : fs.files.get? (key a.names) with
  | some contents => rfl
  | none =>
    have hblocked : fs.isBlocked a.names = false := by
      refine isBlocked_eq_false.mpr fun names hnames => ?_
      obtain ⟨hne,hpre⟩ := mem_wayTo.mp hnames
      rcases List.prefix_concat_iff.mp hpre with hall | hpre
      · have hnames : names = a.names := hall
        rw [hnames, hasFile_eq, hfile]
        rfl
      · exact isBlocked_eq_false.mp hway names (mem_wayTo.mpr ⟨hne,hpre⟩)
    rw [hblocked]
    rfl

theorem isPresent_eq (h : Placed paths) (hs : Clear paths fs) (hp : p ∈ paths) :
    fs.isPresent p = ((view paths).holds fs p).isSome := by
  obtain ⟨a,ha⟩ := Option.isSome_iff_exists.mp (h.isSome p hp)
  obtain ⟨hfolder,_⟩ := hs p hp a ha
  rw [holds_of_place ha, isPresent, locate_of_place ha]
  simp only [hfolder, h.notFolder p hp, Bool.false_or, Bool.not_false, Bool.and_true]
  rfl

theorem makeFolder?_eq (h : Placed paths) (hs : Clear paths fs) (hp : p ∈ paths) {f : Path}
    (hparent : Path.parent? p = some f) (hne : f ≠ "") : ∃ fs', fs.makeFolder? f = some fs' ∧
      Clear paths fs' ∧ (view paths).hasFolder fs' (some f) ∧ fs'.files = fs.files := by
  obtain ⟨a,ha⟩ := Option.isSome_iff_exists.mp (h.isSome p hp)
  have hisEmpty : f.isEmpty = false := by simpa using hne
  have hfolder : folderOf (some f) = some a.folder := hparent ▸ (place?_eq_some.mp ha).2
  have hlocate : locate f = some a.folder := by
    rw [locate, hisEmpty]
    exact hfolder
  have hmade : fs.makeFolder? f = some { fs with
      folders := (wayTo a.folder).foldl (fun d n => d.insert (key n) ()) fs.folders } := by
    simp [makeFolder?, hisEmpty, hlocate, (hs p hp a ha).2]
  refine ⟨_,hmade,?_,⟨a.folder,hfolder,?_⟩,rfl⟩
  · intro q hq b hb
    obtain ⟨hnone,hway⟩ := hs q hq b hb
    refine ⟨?_,hway⟩
    rw [hasFolder, Bool.or_eq_false_iff] at hnone ⊢
    refine ⟨hnone.1,Bool.eq_false_iff.mpr fun hcontains => ?_⟩
    rcases (contains_foldl_insert _ _ _).mp hcontains with hmem | hbefore
    · obtain ⟨names,hnames,hkey⟩ := List.mem_map.mp hmem
      exact h.key_ne hq hb hp ha hnames hkey
    · exact absurd hbefore (Bool.eq_false_iff.mp hnone.2)
  · rw [hasFolder, Bool.or_eq_true, List.isEmpty_iff]
    refine or_iff_not_imp_left.mpr fun hnonempty => ?_
    refine (contains_foldl_insert _ _ _).mpr (.inl ?_)
    exact List.mem_map_of_mem (mem_wayTo.mpr ⟨hnonempty,List.prefix_rfl⟩)

/-- To set a file is to change what its key finds, as no other place depends on this key. -/
theorem sets_of_files (h : Placed paths) (hs : Clear paths fs) (hp : p ∈ paths)
    (ha : place? p = some a) (hfolders : fs'.folders = fs.folders) {contents : Option String}
    (hfile : fs'.files.get? (key a.names) = contents)
    (hothers : ∀ k, k ≠ key a.names → fs'.files.get? k = fs.files.get? k) :
    (view paths).Sets p contents fs fs' := by
  refine ⟨?_,?_,fun q => holds_frame ha hothers⟩
  · intro q hq b hb
    obtain ⟨hnone,hway⟩ := hs q hq b hb
    refine ⟨by rwa [hasFolder, hfolders],isBlocked_eq_false.mpr fun names hnames => ?_⟩
    rw [hasFile_eq, hothers _ (h.key_ne hp ha hq hb hnames)]
    exact isBlocked_eq_false.mp hway names hnames
  · rw [holds_of_place ha, hfile]

theorem write?_eq (h : Placed paths) (hs : Clear paths fs) (hp : p ∈ paths)
    (hfolder : (view paths).hasFolder fs (Path.parent? p)) (text : String) :
    ∃ fs', fs.write? p text = some fs' ∧ (view paths).Sets p (some text) fs fs' := by
  obtain ⟨a,ha⟩ := Option.isSome_iff_exists.mp (h.isSome p hp)
  obtain ⟨hnone,_⟩ := hs p hp a ha
  obtain ⟨folder,hparent,hpresent⟩ := hfolder
  obtain rfl : a.folder = folder := Option.some.inj ((place?_eq_some.mp ha).2.symm.trans hparent)
  have hdropLast : a.names.dropLast = a.folder := List.dropLast_concat
  have hwritten : fs.write? p text =
      some { fs with files := fs.files.insert (key a.names) text } := by
    simp [write?, locate_of_place ha, hnone, h.notFolder p hp, hdropLast, hpresent]
  refine ⟨_,hwritten,?_⟩
  refine sets_of_files h hs hp ha ?_ ?_ fun k hk => ?_
  · rfl
  · rw [Dict.get?_insert, if_pos rfl]
  · rw [Dict.get?_insert, if_neg hk]

theorem remove?_eq (h : Placed paths) (hs : Clear paths fs) (hp : p ∈ paths)
    (hheld : (view paths).holds fs p ≠ none) :
    ∃ fs', fs.remove? p = some fs' ∧ (view paths).Sets p none fs fs' := by
  obtain ⟨a,ha⟩ := Option.isSome_iff_exists.mp (h.isSome p hp)
  rw [holds_of_place ha] at hheld
  have hfile : fs.hasFile a.names = true := Option.isSome_iff_ne_none.mpr hheld
  have hremoved : fs.remove? p = some { fs with files := fs.files.erase (key a.names) } := by
    simp [remove?, locate_of_place ha, hfile, h.notFolder p hp]
  refine ⟨_,hremoved,?_⟩
  refine sets_of_files h hs hp ha ?_ ?_ fun k hk => ?_
  · rfl
  · rw [Dict.get?_erase, if_pos rfl]
  · rw [Dict.get?_erase, if_neg hk]

/-- A file system as a value serves paths that lead to places apart. -/
theorem serves (h : Placed paths) : (view paths).Serves (· ∈ paths) := by
  have hattempt : ∀ {op : FileSystem → Option FileSystem} {fs fs' : FileSystem},
      op fs = some fs' → (attempt op).run fs = (true,fs') := by
    intro op fs fs' hop
    show attempt op fs = _
    simp only [attempt, hop]
  constructor
  · intro fs p hs hp
    exact congrArg (·,fs) (read_eq h hs hp)
  · intro fs p hs hp
    exact congrArg (·,fs) (isPresent_eq h hs hp)
  · intro fs p f hs hp hparent hne
    obtain ⟨fs',hmade,hsound,hfolder,hfiles⟩ := makeFolder?_eq h hs hp hparent hne
    refine ⟨fs',hattempt hmade,hsound,hfolder,fun q => ?_⟩
    simp only [view, hfiles]
  · intro fs _
    exact ⟨⟨[],rfl,rfl⟩,⟨[],rfl,rfl⟩⟩
  · intro fs p text hs hp hfolder
    obtain ⟨fs',hwritten,hsets⟩ := write?_eq h hs hp hfolder text
    exact ⟨fs',hattempt hwritten,hsets⟩
  · intro fs p hs hp hheld
    obtain ⟨fs',hremoved,hsets⟩ := remove?_eq h hs hp hheld
    exact ⟨fs',hattempt hremoved,hsets⟩

end ClientGen.FileSystem
