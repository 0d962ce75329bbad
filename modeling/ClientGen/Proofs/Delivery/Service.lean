import ClientGen.Delivery
import Mathlib.Data.List.Basic

/-! # File systems that serve

A file system of any make, seen through what its paths hold. One that serves some paths does every
operation on them, and an operation changes no file but the one that its path leads to. A delivery
is then a sequence of files set one after the other.
-/
namespace ClientGen

/-- What is read of a file, or of no file. -/
def Reading.held : Option String → Reading
  | some contents => .text contents
  | none => .missing

theorem Reading.held_eq_text {held : Option String} {contents : String} :
    Reading.held held = .text contents ↔ held = some contents := by
  cases held <;> simp [Reading.held]

/-- How the states of a file system are seen. `folder` is the folder that the parent of a path leads
to, and `sound` are the states in which nothing stands in the way of an operation. -/
structure FileView (σ φ : Type) where
  holds : σ → Path → Option String
  folder : Option Path → φ
  hasFolder : σ → Option Path → Prop
  sound : σ → Prop

namespace FileView
variable {σ φ : Type} (V : FileView σ φ)

/-- Two paths lead to one file: to one name in one folder. -/
def Same (p q : Path) : Prop :=
  Path.fileName? p = Path.fileName? q ∧ V.folder (Path.parent? p) = V.folder (Path.parent? q)

instance [DecidableEq φ] : DecidableRel V.Same := fun p q =>
  inferInstanceAs (Decidable (Path.fileName? p = Path.fileName? q ∧
    V.folder (Path.parent? p) = V.folder (Path.parent? q)))

/-- The file of `p` comes to hold `contents`, and all other files stay. -/
structure Sets (p : Path) (contents : Option String) (s s' : σ) : Prop where
  sound : V.sound s'
  holds : V.holds s' p = contents
  frame : ∀ q, ¬ V.Same q p → V.holds s' q = V.holds s q

/-- Every operation on the paths of `served` succeeds and does what it says. -/
structure Serves [Storage (StateM σ)] (served : Path → Prop) : Prop where
  read : ∀ {s p}, V.sound s → served p →
    (Storage.read p : StateM σ Reading).run s = (.held (V.holds s p),s)
  isPresent : ∀ {s p}, V.sound s → served p →
    (Storage.isPresent p : StateM σ Bool).run s = ((V.holds s p).isSome,s)
  makeFolder : ∀ {s p f}, V.sound s → served p → Path.parent? p = some f → f ≠ "" →
    ∃ s', (Storage.makeFolder f : StateM σ Bool).run s = (true,s') ∧ V.sound s' ∧
      V.hasFolder s' (some f) ∧ ∀ q, V.holds s' q = V.holds s q
  /-- The folder in which all begins is there, and so is what has no parent. -/
  hasFolder : ∀ {s}, V.sound s → V.hasFolder s none ∧ V.hasFolder s (some "")
  write : ∀ {s p} (text : String), V.sound s → served p → V.hasFolder s (Path.parent? p) →
    ∃ s', (Storage.write p text : StateM σ Bool).run s = (true,s') ∧ V.Sets p (some text) s s'
  remove : ∀ {s p}, V.sound s → served p → V.holds s p ≠ none →
    ∃ s', (Storage.remove p : StateM σ Bool).run s = (true,s') ∧ V.Sets p none s s'

/-! ## Sequences of changes -/

variable {V}

theorem Same.symm {p q : Path} (h : V.Same p q) : V.Same q p :=
  ⟨h.1.symm,h.2.symm⟩

/-- A change that a state needs to hold what it is meant to hold; none if it holds it. -/
def Brings (V : FileView σ φ) (p : Path) (contents : Option String) (s s' : σ) : Prop :=
  V.Sets p contents s s' ∧ (V.holds s p = contents → s' = s)

/-- The changes are made one after the other. -/
def BringsAll (V : FileView σ φ) : List (Path × Option String) → σ → σ → Prop
  | [], s, s' => V.sound s ∧ s' = s
  | (p,contents) :: rest, s, s' => ∃ m, V.Brings p contents s m ∧ V.BringsAll rest m s'

namespace BringsAll
variable {changes later : List (Path × Option String)} {s m s' : σ}

theorem sound (h : V.BringsAll changes s s') : V.sound s' := by
  induction changes generalizing s with
  | nil => exact h.2 ▸ h.1
  | cons c rest ih =>
    obtain ⟨m,_,hrest⟩ := h
    exact ih hrest

theorem append (h : V.BringsAll changes s m) (h' : V.BringsAll later m s') :
    V.BringsAll (changes ++ later) s s' := by
  induction changes generalizing s with
  | nil => exact h.2 ▸ h'
  | cons c rest ih =>
    obtain ⟨n,hn,hrest⟩ := h
    exact ⟨n,hn,ih hrest⟩

/-- A file that no change is about stays. -/
theorem frame (h : V.BringsAll changes s s') {q : Path} (hq : ∀ c ∈ changes, ¬ V.Same q c.1) :
    V.holds s' q = V.holds s q := by
  induction changes generalizing s with
  | nil => rw [h.2]
  | cons c rest ih =>
    obtain ⟨n,hn,hrest⟩ := h
    obtain ⟨hc,hlater⟩ := List.forall_mem_cons.mp hq
    exact (ih hrest hlater).trans (hn.1.frame q hc)

/-- A file that one change is about holds what that change brings. -/
theorem holds (h : V.BringsAll changes s s') {c : Path × Option String} (hc : c ∈ changes)
    (hothers : ∀ d ∈ changes, d = c ∨ ¬ V.Same c.1 d.1) : V.holds s' c.1 = c.2 := by
  induction changes generalizing s with
  | nil => exact absurd hc List.not_mem_nil
  | cons d rest ih =>
    obtain ⟨n,hn,hrest⟩ := h
    have hlater : ∀ d ∈ rest, d = c ∨ ¬ V.Same c.1 d.1 :=
      fun d hd => hothers d (List.mem_cons_of_mem _ hd)
    by_cases hmem : c ∈ rest
    · exact ih hrest hmem hlater
    · rcases List.mem_cons.mp hc with rfl | hc
      · -- the last change of this file is the one that stands first
        have hframe := hrest.frame fun d hd => (hlater d hd).resolve_left fun he => hmem (he ▸ hd)
        exact hframe.trans hn.1.holds
      · exact absurd hc hmem

/-- Where all is as it is meant to be, nothing changes. -/
theorem eq_of_held (h : V.BringsAll changes s s') (hheld : ∀ c ∈ changes, V.holds s c.1 = c.2) :
    s' = s := by
  induction changes generalizing s with
  | nil => exact h.2
  | cons c rest ih =>
    obtain ⟨n,hn,hrest⟩ := h
    obtain ⟨hc,hlater⟩ := List.forall_mem_cons.mp hheld
    have hsame : n = s := hn.2 hc
    subst hsame
    exact ih hrest hlater

end BringsAll
end FileView
end ClientGen
