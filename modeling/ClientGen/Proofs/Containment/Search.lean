import ClientGen.Model.Containment
import Mathlib

/-! # Searches

A search takes one name after the other from those it has still to visit and, when a name is new,
adds what the name leads to. In whatever order names are taken, the search ends, after at most as
many turns as there are names to add in all, and has then seen what can be reached and nothing else.
-/
namespace ClientGen.Containment
variable {known : List String} {next : String → List String}

/-! ## Turns of a search -/

/-- The names seen so far, and those still to visit. -/
structure Search where
  seen : List String
  toVisit : List String

/-- The search has come across the name. -/
def Search.Met (s : Search) (n : String) : Prop :=
  n ∈ s.seen ∨ n ∈ s.toVisit

/-- One turn takes any name to visit. If it is new, it is seen, and what it leads to is to be visited
as well. -/
inductive Turn (next : String → List String) : Search → Search → Prop
  | fresh {seen toVisit more : List String} {n : String} (hn : n ∈ toVisit) (hs : n ∉ seen)
    (hm : more.Perm (next n ++ toVisit.erase n)) : Turn next ⟨seen,toVisit⟩ ⟨n :: seen,more⟩
  | again {seen toVisit less : List String} {n : String} (hn : n ∈ toVisit) (hs : n ∈ seen)
    (hl : less.Perm (toVisit.erase n)) : Turn next ⟨seen,toVisit⟩ ⟨seen,less⟩

/-- So many turns, one after the other. -/
inductive Turns (next : String → List String) : Nat → Search → Search → Prop
  | none (s : Search) : Turns next 0 s s
  | turn {k : Nat} {s s' s'' : Search} (h : Turn next s s') (hs : Turns next k s' s'') :
    Turns next (k + 1) s s''

variable {s s' : Search} {k : Nat}

/-- Only when nothing is left to visit there is no further turn. -/
theorem exists_turn (next : String → List String) (h : s.toVisit ≠ []) :
    ∃ s', Turn next s s' := by
  obtain ⟨seen,toVisit⟩ := s
  obtain ⟨n,hn⟩ := List.exists_mem_of_ne_nil toVisit h
  by_cases hs : n ∈ seen
  · exact ⟨_,.again hn hs (.refl _)⟩
  · exact ⟨_,.fresh hn hs (.refl _)⟩

/-! ## What a search comes across -/

theorem eq_or_mem_erase (n : String) {m : String} {ns : List String} (h : m ∈ ns) :
    m = n ∨ m ∈ ns.erase n := by
  by_cases hm : m = n
  · exact .inl hm
  · exact .inr ((List.mem_erase_of_ne hm).mpr h)

/-- What was met is not lost. -/
theorem Turn.met (h : Turn next s s') {m : String} (hm : s.Met m) : s'.Met m := by
  cases h with
  | @fresh seen toVisit more n hn hs hperm =>
    rcases hm with hm | hm
    · exact .inl (List.mem_cons_of_mem _ hm)
    · rcases eq_or_mem_erase n hm with rfl | hm
      · exact .inl List.mem_cons_self
      · exact .inr (hperm.mem_iff.mpr (List.mem_append_right _ hm))
  | @again seen toVisit less n hn hs hperm =>
    rcases hm with hm | hm
    · exact .inl hm
    · rcases eq_or_mem_erase n hm with rfl | hm
      · exact .inl hs
      · exact .inr (hperm.mem_iff.mpr hm)

theorem Turn.of_met (h : Turn next s s') {m : String} (hm : s'.Met m) :
    s.Met m ∨ ∃ n, s.Met n ∧ m ∈ next n := by
  cases h with
  | fresh hn hs hperm =>
    rcases hm with hm | hm
    · rcases List.mem_cons.mp hm with rfl | hm
      · exact .inl (.inr hn)
      · exact .inl (.inl hm)
    · rcases List.mem_append.mp (hperm.mem_iff.mp hm) with hm | hm
      · exact .inr ⟨_,.inr hn,hm⟩
      · exact .inl (.inr (List.mem_of_mem_erase hm))
  | again hn hs hperm =>
    rcases hm with hm | hm
    · exact .inl (.inl hm)
    · exact .inl (.inr (List.mem_of_mem_erase (hperm.mem_iff.mp hm)))

/-- What the seen names lead to has been met. -/
def Search.Open (next : String → List String) (s : Search) : Prop :=
  ∀ a ∈ s.seen, ∀ b ∈ next a, s.Met b

theorem Turn.open (h : Turn next s s') (ho : s.Open next) : s'.Open next := by
  have hmet {m : String} (hm : s.Met m) : s'.Met m := h.met hm
  intro a ha b hb
  cases h with
  | fresh hn hs hperm =>
    rcases List.mem_cons.mp ha with rfl | ha
    · exact .inr (hperm.mem_iff.mpr (List.mem_append_left _ hb))
    · exact hmet (ho a ha b hb)
  | again hn hs hperm => exact hmet (ho a ha b hb)

namespace Turns

theorem met (h : Turns next k s s') {m : String} (hm : s.Met m) : s'.Met m := by
  induction h with
  | none => exact hm
  | turn hturn _ ih => exact ih (hturn.met hm)

/-- A property of all names met is kept if it passes on to what a name leads to. -/
theorem forall_met {p : String → Prop} (hnext : ∀ a, p a → ∀ b ∈ next a, p b)
    (h : Turns next k s s') (hs : ∀ m, s.Met m → p m) : ∀ m, s'.Met m → p m := by
  induction h with
  | none => exact hs
  | turn hturn _ ih =>
    refine ih fun m hm => ?_
    rcases hturn.of_met hm with hm | ⟨n,hn,hm⟩
    · exact hs m hm
    · exact hnext n (hs n hn) m hm

theorem opens (h : Turns next k s s') (ho : s.Open next) : s'.Open next := by
  induction h with
  | none => exact ho
  | turn hturn _ ih => exact ih (hturn.open ho)

/-- What is seen in the end is what steps from the start lead to. -/
theorem mem_seen_iff {a b : String} {seen : List String}
    (h : Turns next k ⟨[],next a⟩ ⟨seen,[]⟩) :
    b ∈ seen ↔ Relation.TransGen (fun a b => b ∈ next a) a b := by
  constructor
  · intro hb
    refine h.forall_met (p := Relation.TransGen (fun a b => b ∈ next a) a)
      (fun _ ha _ hb => ha.tail hb) ?_ b (.inl hb)
    rintro m (hm | hm)
    · cases hm
    · exact .single hm
  · intro hway
    have hopen : Search.Open next ⟨seen,[]⟩ := h.opens (by simp [Search.Open])
    have hmet {m : String} (hm : Search.Met ⟨seen,[]⟩ m) : m ∈ seen :=
      hm.resolve_right List.not_mem_nil
    induction hway with
    | single hb => exact hmet (h.met (.inr hb))
    | tail _ hb ih => exact hmet (hopen _ ih _ hb)

end Turns

/-! ## How long a search goes on -/

/-- The names to visit, and those that the names not seen yet would add. -/
def Search.work (known : List String) (next : String → List String) (s : Search) : Nat :=
  s.toVisit.length + ((unseen known s.seen).map fun n => (next n).length).sum

theorem sum_filter_ne_add_le (f : String → Nat) {ns : List String} {n : String} (h : n ∈ ns) :
    ((ns.filter (· != n)).map f).sum + f n ≤ (ns.map f).sum := by
  induction ns with
  | nil => cases h
  | cons m ns ih =>
    by_cases hm : m = n
    · have hle : ((ns.filter (· != n)).map f).sum ≤ (ns.map f).sum :=
        (List.filter_sublist.map f).sum_le_sum fun _ _ => Nat.zero_le _
      simp only [hm, List.filter_cons, bne_self_eq_false, List.map_cons, List.sum_cons,
        Bool.false_eq_true, if_false]
      omega
    · have hle := ih ((List.mem_cons.mp h).resolve_left (Ne.symm hm))
      simp only [List.filter_cons, bne_iff_ne, ne_eq, hm, not_false_eq_true, if_true,
        List.map_cons, List.sum_cons]
      omega

theorem Turn.work_lt (h : Turn next s s') (hs : ∀ n, s.Met n → n ∈ known) :
    s'.work known next < s.work known next := by
  cases h with
  | @fresh seen toVisit more n hn hseen hperm =>
    have hmem : n ∈ unseen known seen := by
      simpa [unseen, hseen] using hs n (.inr hn)
    have hsum := sum_filter_ne_add_le (fun n => (next n).length) hmem
    have hlength := hperm.length_eq
    rw [List.length_append, List.length_erase_of_mem hn] at hlength
    have hpos := List.length_pos_of_mem hn
    simp only [Search.work, unseen_cons, hlength]
    omega
  | again hn _ hperm =>
    have hlength := hperm.length_eq
    rw [List.length_erase_of_mem hn] at hlength
    have hpos := List.length_pos_of_mem hn
    simp only [Search.work, hlength]
    omega

theorem Turns.add_work_le (hnext : ∀ a ∈ known, ∀ b ∈ next a, b ∈ known)
    (h : Turns next k s s') (hs : ∀ n, s.Met n → n ∈ known) :
    k + s'.work known next ≤ s.work known next := by
  induction h with
  | none => omega
  | turn hturn hrest ih =>
    have hlt := hturn.work_lt hs
    have hle := ih (Turns.forall_met hnext (.turn hturn (.none _)) hs)
    omega

/-! ## The visit as a search -/

/-- The visit takes the first name each time, until nothing is left to visit. -/
theorem turns_visit (hnext : ∀ a ∈ known, ∀ b ∈ next a, b ∈ known) {seen toVisit : List String}
    (h : ∀ n ∈ toVisit, n ∈ known) :
    ∃ k, Turns next k ⟨seen,toVisit⟩ ⟨visit known next seen toVisit,[]⟩ := by
  fun_induction visit known next seen toVisit with
  | case1 seen => exact ⟨0,.none _⟩
  | case2 seen n rest hn ih =>
    obtain ⟨hknown,hrest⟩ := List.forall_mem_cons.mp h
    obtain ⟨k,hk⟩ := ih (List.forall_mem_append.mpr ⟨hnext n hknown,hrest⟩)
    have hturn : Turn next ⟨seen,n :: rest⟩ ⟨n :: seen,next n ++ rest⟩ :=
      .fresh List.mem_cons_self (by simpa using hn.2) (by simp)
    exact ⟨k + 1,.turn hturn hk⟩
  | case3 seen n rest hn ih =>
    obtain ⟨hknown,hrest⟩ := List.forall_mem_cons.mp h
    obtain ⟨k,hk⟩ := ih hrest
    have hturn : Turn next ⟨seen,n :: rest⟩ ⟨seen,rest⟩ :=
      .again List.mem_cons_self (by simpa [hknown] using hn) (by simp)
    exact ⟨k + 1,.turn hturn hk⟩

end ClientGen.Containment
