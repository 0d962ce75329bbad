import ClientGen.Proofs.Template.Cuts
import Mathlib.Algebra.GroupWithZero.Nat

/-! # Format strings

In a format string a doubled brace stands for one brace, and any other opening brace begins an
argument. A path with holes in the places of its placeholders is a format string for this path
exactly when the text around the placeholders has no brace.
-/
namespace ClientGen.FormatString

inductive Piece
  | char (c : Char)
  /-- An argument, with what stands between its braces. -/
  | hole (spec : List Char)
  deriving DecidableEq, Repr

inductive Reading
  | text
  /-- After an opening brace, with what was read since. -/
  | opened (spec : List Char)
  /-- After a closing brace that no opening one belongs to. -/
  | closing
  deriving DecidableEq, Repr

/-- The pieces of a format string; there are none if a brace stands alone. -/
def read : Reading → List Char → Option (List Piece)
  | .text, [] => some []
  | .text, c :: rest =>
    if c = '{' then read (.opened []) rest
    else if c = '}' then read .closing rest
    else (read .text rest).map (.char c :: ·)
  | .opened _, [] => none
  | .opened spec, c :: rest =>
    if c = '}' then (read .text rest).map (.hole spec :: ·)
    else if c = '{' then
      if spec.isEmpty then (read .text rest).map (.char '{' :: ·) else none
    else read (.opened (spec ++ [c])) rest
  | .closing, [] => none
  | .closing, c :: rest => if c = '}' then (read .text rest).map (.char '}' :: ·) else none

/-- Pieces with texts for the holes in turn. Each text has to be used, and a hole that chooses its
argument or its form gets none. -/
def fill : List Piece → List (List Char) → Option (List Char)
  | [], [] => some []
  | [], _ :: _ => none
  | .char c :: ps, args => (fill ps args).map (c :: ·)
  | .hole [] :: ps, arg :: args => (fill ps args).map (arg ++ ·)
  | .hole [] :: _, [] => none
  | .hole (_ :: _) :: _, _ => none

def formatted (template : List Char) (args : List (List Char)) : Option (List Char) :=
  (read .text template).bind (fill · args)

/-- What the format string makes of the arguments, if it is one that takes just as many. -/
def format (template : String) (args : List String) : Option String :=
  (formatted template.toList (args.map String.toList)).map String.ofList

def isBrace (c : Char) : Bool :=
  c == '{' || c == '}'

/-! ## Text and holes -/

theorem formatted_char {c : Char} (h : isBrace c = false) (rest : List Char)
    (args : List (List Char)) :
    formatted (c :: rest) args = (formatted rest args).map (c :: ·) := by
  simp only [isBrace, Bool.or_eq_false_iff, beq_eq_false_iff_ne] at h
  rw [formatted, read, if_neg h.1, if_neg h.2, formatted]
  cases read .text rest with
  | none => rfl
  | some ps => rw [Option.map_some, Option.bind_some, fill, Option.bind_some]

theorem formatted_text {t : List Char} (h : ∀ c ∈ t, isBrace c = false) (rest : List Char)
    (args : List (List Char)) :
    formatted (t ++ rest) args = (formatted rest args).map (t ++ ·) := by
  induction t with
  | nil => simp
  | cons c t ih =>
    have hc := h c List.mem_cons_self
    have ht := ih fun d hd => h d (List.mem_cons_of_mem _ hd)
    rw [List.cons_append, formatted_char hc, ht, Option.map_map]
    rfl

theorem formatted_hole (rest arg : List Char) (args : List (List Char)) :
    formatted ('{' :: '}' :: rest) (arg :: args) = (formatted rest args).map (arg ++ ·) := by
  rw [formatted, read, if_pos rfl, read, if_pos rfl, formatted]
  cases read .text rest with
  | none => rfl
  | some ps => rw [Option.map_some, Option.bind_some, fill, Option.bind_some]

/-! ## Doubled braces -/

theorem formatted_doubled {c : Char} (h : isBrace c = true) (rest : List Char)
    (args : List (List Char)) :
    formatted (c :: c :: rest) args = (formatted rest args).map (c :: ·) := by
  have hread : read .text (c :: c :: rest) = (read .text rest).map (.char c :: ·) := by
    simp only [isBrace, Bool.or_eq_true, beq_iff_eq] at h
    rcases h with rfl | rfl
    · simp [read]
    · simp [read]
  rw [formatted, hread, formatted]
  cases read .text rest with
  | none => rfl
  | some ps => rw [Option.map_some, Option.bind_some, fill, Option.bind_some]

/-- A text with each brace twice. -/
def doubled (cs : List Char) : List Char :=
  cs.flatMap fun c => if isBrace c then [c,c] else [c]

/-- A text with each brace twice stands for the text. -/
theorem formatted_doubled_append (t rest : List Char) (args : List (List Char)) :
    formatted (doubled t ++ rest) args = (formatted rest args).map (t ++ ·) := by
  induction t with
  | nil => simp [doubled]
  | cons c t ih =>
    have hrest : doubled (c :: t) ++ rest =
        (if isBrace c then [c,c] else [c]) ++ (doubled t ++ rest) := by
      rw [doubled, List.flatMap_cons, List.append_assoc, doubled]
    rw [hrest]
    cases hc : isBrace c with
    | true =>
      simp only [if_true, List.cons_append, List.nil_append]
      rw [formatted_doubled hc, ih, Option.map_map]
      rfl
    | false =>
      simp only [Bool.false_eq_true, if_false, List.cons_append, List.nil_append]
      rw [formatted_char hc, ih, Option.map_map]
      rfl

/-! ## Widths -/

/-- How many characters of the format string a piece takes. -/
def Piece.width : Piece → Nat
  | .char c => if isBrace c then 2 else 1
  | .hole spec => spec.length + 2

def Reading.width : Reading → Nat
  | .text => 0
  | .opened spec => spec.length + 1
  | .closing => 1

/-- Reading on from a brace counts the characters since that brace as read. -/
theorem width_of_read {s : Reading} {cs : List Char} {ps : List Piece} (h : read s cs = some ps) :
    s.width + cs.length = (ps.map Piece.width).sum := by
  fun_induction read s cs generalizing ps with
  | case1 =>
    cases h
    rfl
  | case2 rest ih =>
    have hrest := ih h
    simp only [Reading.width, List.length_cons, List.length_nil] at hrest ⊢
    omega
  | case3 rest _ ih =>
    have hrest := ih h
    simp only [Reading.width, List.length_cons] at hrest ⊢
    omega
  | case4 c rest hopen hclose ih =>
    obtain ⟨qs,hread,rfl⟩ := Option.map_eq_some_iff.mp h
    have hrest := ih hread
    have hwidth : (Piece.char c).width = 1 := by simp [Piece.width, isBrace, hopen, hclose]
    simp only [Reading.width, List.length_cons, List.map_cons, List.sum_cons, hwidth] at hrest ⊢
    omega
  | case6 spec rest ih =>
    obtain ⟨qs,hread,rfl⟩ := Option.map_eq_some_iff.mp h
    have hrest := ih hread
    simp only [Reading.width, Piece.width, List.length_cons, List.map_cons,
      List.sum_cons] at hrest ⊢
    omega
  | case7 spec rest hempty _ ih =>
    obtain ⟨qs,hread,rfl⟩ := Option.map_eq_some_iff.mp h
    have hrest := ih hread
    have hwidth : (Piece.char '{').width = 2 := by decide
    rw [List.isEmpty_iff.mp hempty]
    simp only [Reading.width, List.length_cons, List.length_nil, List.map_cons, List.sum_cons,
      hwidth] at hrest ⊢
    omega
  | case9 spec c rest _ _ ih =>
    have hrest := ih h
    simp only [Reading.width, List.length_cons, List.length_append, List.length_nil] at hrest ⊢
    omega
  | case11 rest ih =>
    obtain ⟨qs,hread,rfl⟩ := Option.map_eq_some_iff.mp h
    have hrest := ih hread
    have hwidth : (Piece.char '}').width = 2 := by decide
    simp only [Reading.width, List.length_cons, List.map_cons, List.sum_cons, hwidth] at hrest ⊢
    omega
  | case5 | case8 | case10 | case12 => cases h

/-- Empty texts take no place, so what comes out is the text of the format string. -/
theorem width_of_fill {ps : List Piece} {args : List (List Char)} {out : List Char}
    (hargs : ∀ arg ∈ args, arg = []) (h : fill ps args = some out) :
    (ps.map Piece.width).sum = out.length + out.countP isBrace + 2 * args.length := by
  fun_induction fill ps args generalizing out with
  | case1 =>
    cases h
    rfl
  | case3 c ps args ih =>
    obtain ⟨text,hfill,rfl⟩ := Option.map_eq_some_iff.mp h
    have hrest := ih hargs hfill
    rw [List.map_cons, List.sum_cons, hrest, List.length_cons, List.countP_cons, Piece.width]
    split <;> omega
  | case4 ps arg args ih =>
    obtain ⟨text,hfill,rfl⟩ := Option.map_eq_some_iff.mp h
    have hrest := ih (fun a ha => hargs a (List.mem_cons_of_mem _ ha)) hfill
    rw [hargs arg List.mem_cons_self, List.nil_append, List.map_cons, List.sum_cons, hrest,
      List.length_cons, Piece.width, List.length_nil]
    omega
  | case2 | case5 | case6 => cases h

theorem length_of_formatted {cs : List Char} {args : List (List Char)} {out : List Char}
    (hargs : ∀ arg ∈ args, arg = []) (h : formatted cs args = some out) :
    cs.length = out.length + out.countP isBrace + 2 * args.length := by
  obtain ⟨ps,hread,hfill⟩ := Option.bind_eq_some_iff.mp h
  have hwidth := width_of_read hread
  rw [Reading.width, Nat.zero_add] at hwidth
  rw [hwidth, width_of_fill hargs hfill]

end ClientGen.FormatString

namespace ClientGen.Template
open FormatString (isBrace formatted)

/-! ## Paths with holes -/

/-- The text around the placeholders, piece by piece. -/
def literals (cs : List Char) : List (List Char) :=
  (cuts cs).1.map (·.1) ++ [(cuts cs).2]

/-- The path with texts in place of its placeholders. -/
def filled (cs : List Char) (args : List (List Char)) : List Char :=
  ((cuts cs).1.zip args).flatMap (fun (cut,arg) => cut.1 ++ arg) ++ (cuts cs).2

/-- Only placeholders have braces. -/
def Plain (cs : List Char) : Prop :=
  ∀ t ∈ literals cs, ∀ c ∈ t, isBrace c = false

instance (cs : List Char) : Decidable (Plain cs) :=
  decidable_of_iff ((literals cs).all (fun t => t.all (! isBrace ·)) = true) (by simp [Plain])

/-- The path with a hole for each placeholder. -/
def punched (cs : List Char) : List Char :=
  (cuts cs).1.flatMap (fun (before,_) => before ++ ['{','}']) ++ (cuts cs).2

theorem toList_holes (path : String) : (holes path).toList = punched path.toList := by
  rw [holes, String.toList_ofList, punched]

section
variable {cs t n : List Char}

theorem literals_unfilled (h : Unfilled cs) : literals cs = [cs] := by
  rw [literals, cuts_unfilled h, List.map_nil, List.nil_append]

theorem filled_unfilled (h : Unfilled cs) (args : List (List Char)) : filled cs args = cs := by
  rw [filled, cuts_unfilled h, List.zip_nil_left, List.flatMap_nil, List.nil_append]

theorem punched_unfilled (h : Unfilled cs) : punched cs = cs := by
  rw [punched, cuts_unfilled h, List.flatMap_nil, List.nil_append]

variable (ht : '{' ∉ t) (hn : '}' ∉ n) (rest : List Char)
include ht hn

theorem literals_cut : literals (t ++ '{' :: n ++ '}' :: rest) = t :: literals rest := by
  rw [literals, cuts_cut ht hn, List.map_cons, List.cons_append, literals]

theorem filled_cut (arg : List Char) (args : List (List Char)) :
    filled (t ++ '{' :: n ++ '}' :: rest) (arg :: args) = t ++ arg ++ filled rest args := by
  rw [filled, cuts_cut ht hn, List.zip_cons_cons, List.flatMap_cons, List.append_assoc, filled]

theorem punched_cut :
    punched (t ++ '{' :: n ++ '}' :: rest) = t ++ '{' :: '}' :: punched rest := by
  rw [punched, cuts_cut ht hn, List.flatMap_cons, List.append_assoc, punched]
  simp

end

/-- Under empty texts a path becomes the text around its placeholders. -/
theorem filled_replicate_nil (cs : List Char) :
    filled cs (List.replicate (names cs).length []) = (literals cs).flatten := by
  induction cs using cut_induction with
  | unfilled cs h =>
    rw [filled_unfilled h, literals_unfilled h, List.flatten_cons, List.flatten_nil,
      List.append_nil]
  | cut t n rest ht hn ih =>
    rw [names_cut ht hn, List.length_cons, List.replicate_succ, filled_cut ht hn,
      literals_cut ht hn, List.flatten_cons, ih, List.append_nil]

theorem length_punched (cs : List Char) :
    (punched cs).length = (literals cs).flatten.length + 2 * (names cs).length := by
  induction cs using cut_induction with
  | unfilled cs h =>
    rw [punched_unfilled h, literals_unfilled h, names_unfilled h]
    simp
  | cut t n rest ht hn ih =>
    rw [punched_cut ht hn, literals_cut ht hn, names_cut ht hn]
    simp only [List.length_append, List.length_cons, List.flatten_cons, ih]
    omega

theorem formatted_punched {cs : List Char} (h : Plain cs) {args : List (List Char)}
    (hl : args.length = (names cs).length) :
    formatted (punched cs) args = some (filled cs args) := by
  induction cs using cut_induction generalizing args with
  | unfilled cs hu =>
    rw [names_unfilled hu] at hl
    obtain rfl := List.length_eq_zero_iff.mp hl
    have hplain := h cs (by rw [literals_unfilled hu]; exact List.mem_singleton_self cs)
    have hformat := FormatString.formatted_text hplain [] []
    rw [List.append_nil] at hformat
    have hnil : formatted [] [] = some [] := rfl
    rw [punched_unfilled hu, filled_unfilled hu, hformat, hnil, Option.map_some, List.append_nil]
  | cut t n rest ht hn ih =>
    rw [names_cut ht hn] at hl
    cases args with
    | nil => cases hl
    | cons arg args =>
      unfold Plain at h
      rw [literals_cut ht hn] at h
      have hrest := ih (fun t' ht' => h t' (List.mem_cons_of_mem _ ht')) (Nat.succ.inj hl)
      rw [punched_cut ht hn, filled_cut ht hn,
        FormatString.formatted_text (h t List.mem_cons_self), FormatString.formatted_hole, hrest]
      simp

/-- With a brace in the text around the placeholders, the holes are not even right for empty
texts. -/
theorem plain_of_formatted {cs : List Char}
    (h : formatted (punched cs) (List.replicate (names cs).length []) =
      some (filled cs (List.replicate (names cs).length []))) : Plain cs := by
  have hempty : ∀ arg ∈ List.replicate (names cs).length ([] : List Char), arg = [] :=
    fun arg harg => List.eq_of_mem_replicate harg
  -- a brace that comes out has gone in twice, and no text makes up for it
  have hlength := FormatString.length_of_formatted hempty h
  rw [filled_replicate_nil, length_punched, List.length_replicate] at hlength
  have hbraces : (literals cs).flatten.countP isBrace = 0 := by omega
  intro t ht c hc
  have hnone := List.countP_eq_zero.mp hbraces c (List.mem_flatten.mpr ⟨t,ht,hc⟩)
  simpa using hnone

/-- A path with texts in place of its placeholders. -/
def instantiated (path : String) (texts : List String) : String :=
  String.ofList (filled path.toList (texts.map String.toList))

/-- The holes stand for the path under any texts, if only placeholders have braces, and otherwise
not under all. -/
theorem format_holes (path : String) :
    (∀ texts : List String, texts.length = (placeholders path).length →
      FormatString.format (holes path) texts = some (instantiated path texts)) ↔
        Plain path.toList := by
  have hcount : (placeholders path).length = (names path.toList).length := by
    rw [placeholders_eq, List.length_map]
  constructor
  · intro h
    have hempty := h (List.replicate (placeholders path).length "") List.length_replicate
    have htexts : (List.replicate (placeholders path).length "").map String.toList =
        List.replicate (names path.toList).length [] := by
      rw [List.map_replicate, hcount]
      rfl
    rw [FormatString.format, instantiated, toList_holes, htexts] at hempty
    obtain ⟨out,hout,he⟩ := Option.map_eq_some_iff.mp hempty
    rw [String.ofList_injective he] at hout
    exact plain_of_formatted hout
  · intro h texts htexts
    have hlength : (texts.map String.toList).length = (names path.toList).length := by
      rw [List.length_map, htexts, hcount]
    rw [FormatString.format, instantiated, toList_holes, formatted_punched h hlength,
      Option.map_some]

example : FormatString.format (holes "/a/{id}.json") ["7"] = some "/a/7.json" := by decide

example : FormatString.format (holes "/a\x7d/{id}") ["7"] = none := by decide

end ClientGen.Template
