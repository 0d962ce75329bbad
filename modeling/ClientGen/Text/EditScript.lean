/-! # Edit scripts

How one list becomes another, as runs of items that stay, go or come. The script is a shortest one:
where the lists differ at both ends it is cut at the middle snake, the stretch of equal items on
which a search from the front and one from the back first meet. Runs that come are then moved down
as far as the items around them allow, and neighbouring runs of one kind are joined.
-/
namespace ClientGen.Text

inductive Fate
  | same
  | removed
  | added
  deriving DecidableEq, Repr

structure Run (α : Type) where
  fate : Fate
  items : List α
  deriving DecidableEq, Repr

namespace EditScript
variable {α : Type} [DecidableEq α]

def commonPrefix : List α → List α → Nat
  | a :: as, b :: bs => if a = b then commonPrefix as bs + 1 else 0
  | _, _ => 0

def commonSuffix (as bs : List α) : Nat :=
  commonPrefix as.reverse bs.reverse

/-! ## The middle snake -/

/-- The furthest `x` reached so far on each diagonal, diagonal `k` at position `k + offset`. -/
structure Frontier where
  offset : Nat
  reached : Array Nat

namespace Frontier

def ofSize (size : Nat) : Frontier :=
  ⟨size + 1, Array.replicate (2 * size + 3) 0⟩

def xAt (f : Frontier) (k : Int) : Nat :=
  f.reached.getD (k + f.offset).toNat 0

def set (f : Frontier) (k : Int) (x : Nat) : Frontier :=
  { f with reached := f.reached.setIfInBounds (k + f.offset).toNat x }

/-- Where diagonal `k` is entered with `d` edits: from the one above or the one below. -/
def entry (f : Frontier) (d : Nat) (k : Int) : Nat :=
  if k = -d ∨ (k ≠ d ∧ f.xAt (k - 1) < f.xAt (k + 1)) then f.xAt (k + 1) else f.xAt (k - 1) + 1

end Frontier

/-- How many items agree from `x` in the one list and `y` in the other. -/
def snake (as bs : Array α) (x y : Nat) : Nat → Nat
  | 0 => 0
  | fuel + 1 =>
    match as[x]?, bs[y]? with
    | some a, some b => if a = b then snake as bs (x + 1) (y + 1) fuel + 1 else 0
    | _, _ => 0

/-- The end of the snake that starts at `x` on diagonal `k`. -/
def follow (as bs : Array α) (k : Int) (x : Nat) : Nat :=
  x + snake as bs x (x - k).toNat as.size

/-- The diagonals that `d` edits lead to. -/
def diagonals (d : Nat) : List Int :=
  (List.range (d + 1)).map fun i : Nat => (d : Int) - 2 * (i : Int)

/-- What a step of a search yields: a place to cut, or how far it has come. -/
abbrev Step := (Nat × Nat) ⊕ Frontier

/-- Searches from the front. With an odd difference in length the searches meet here. -/
def forward (as bs : Array α) (d : Nat) (back : Frontier) : List Int → Frontier → Step
  | [], front => .inr front
  | k :: ks, front =>
    let x₀ := front.entry d k
    let x := follow as bs k x₀
    let delta := (as.size : Int) - bs.size
    if delta % 2 ≠ 0 ∧ (k - delta).natAbs < d ∧ as.size ≤ x + back.xAt (delta - k) then
      .inl (x₀, (x₀ - k).toNat)
    else forward as bs d back ks (front.set k x)

/-- Searches from the back: the same on the reversed lists. -/
def backward (as bs ras rbs : Array α) (d : Nat) (front : Frontier) : List Int → Frontier → Step
  | [], back => .inr back
  | k :: ks, back =>
    let x := follow ras rbs k (back.entry d k)
    let delta := (as.size : Int) - bs.size
    if delta % 2 = 0 ∧ (k - delta).natAbs ≤ d ∧ as.size ≤ x + front.xAt (delta - k) then
      .inl (as.size - x, bs.size - (x - k).toNat)
    else backward as bs ras rbs d front ks (back.set k x)

/-- Searches with `d` edits from either end, then with more, up to `fuel` rounds. -/
def meet (as bs ras rbs : Array α) : Nat → Nat → Frontier → Frontier → Option (Nat × Nat)
  | 0, _, _, _ => none
  | fuel + 1, d, front, back =>
    match forward as bs d back (diagonals d) front with
    | .inl cut => some cut
    | .inr front =>
      match backward as bs ras rbs d front (diagonals d) back with
      | .inl cut => some cut
      | .inr back => meet as bs ras rbs fuel (d + 1) front back

def middle? (as bs : List α) : Option (Nat × Nat) :=
  let rounds := (as.length + bs.length + 1) / 2 + 1
  meet as.toArray bs.toArray as.reverse.toArray bs.reverse.toArray rounds 0
    (.ofSize rounds) (.ofSize rounds)

/-! ## The script -/

def run (fate : Fate) (items : List α) : List (Run α) :=
  if items.isEmpty then [] else [⟨fate, items⟩]

/-- Each cut leaves less to do; `fuel` bounds the number of nested cuts. -/
def cutAt : Nat → List α → List α → List (Run α)
  | 0, as, bs => run .removed as ++ run .added bs
  | fuel + 1, as, bs =>
    let p := commonPrefix as bs
    let as' := as.drop p
    let bs' := bs.drop p
    let s := commonSuffix as' bs'
    let as'' := as'.take (as'.length - s)
    let bs'' := bs'.take (bs'.length - s)
    let inner :=
      if as''.isEmpty ∨ bs''.isEmpty then run .removed as'' ++ run .added bs''
      else
        match middle? as'' bs'' with
        | some (x, y) =>
          cutAt fuel (as''.take x) (bs''.take y) ++ cutAt fuel (as''.drop x) (bs''.drop y)
        | none => run .removed as'' ++ run .added bs''
    run .same (as.take p) ++ inner ++ run .same (as'.drop (as'.length - s))

def raw (as bs : List α) : List (Run α) :=
  cutAt (as.length + bs.length) as bs

/-! ## Moving runs -/

/-- A script seen from one of its runs: the runs before it, nearest first, and those after. -/
structure Focus (α : Type) where
  before : List (Run α)
  here : Run α
  after : List (Run α)

/-- Puts equal items in front of a run list, into its first run if that stays too. -/
def pushSame (items : List α) : List (Run α) → List (Run α)
  | ⟨.same, more⟩ :: rest => ⟨.same, items ++ more⟩ :: rest
  | rest => ⟨.same, items⟩ :: rest

/-- The same for runs listed backwards. -/
def pushSameBack (items : List α) : List (Run α) → List (Run α)
  | ⟨.same, more⟩ :: rest => ⟨.same, more ++ items⟩ :: rest
  | rest => ⟨.same, items⟩ :: rest

def moveUp : Nat → Focus α → Focus α
  | 0, f => f
  | fuel + 1, f =>
    match f.before with
    | [] => f
    | ⟨.same, prev⟩ :: rest =>
      let n := if f.here.fate = .added then commonSuffix prev f.here.items else 0
      if n = 0 then f
      else
        let kept := prev.length - n
        let split := f.here.items.length - n
        moveUp fuel {
          before := run .same (prev.take kept) ++ rest
          here := ⟨f.here.fate, prev.drop kept ++ f.here.items.take split⟩
          after := pushSame (f.here.items.drop split) f.after }
    | prev :: rest =>
      if prev.fate = f.here.fate then
        moveUp fuel { f with before := rest, here := ⟨prev.fate, prev.items ++ f.here.items⟩ }
      else moveUp fuel { f with before := rest, after := prev :: f.after }

def moveDown : Nat → Focus α → Focus α
  | 0, f => f
  | fuel + 1, f =>
    match f.after with
    | [] => f
    | ⟨.same, next⟩ :: rest =>
      let n := if f.here.fate = .added then commonPrefix next f.here.items else 0
      if n = 0 then f
      else
        moveDown fuel {
          before := pushSameBack (f.here.items.take n) f.before
          here := ⟨f.here.fate, f.here.items.drop n ++ next.take n⟩
          after := run .same (next.drop n) ++ rest }
    | next :: rest =>
      if next.fate = f.here.fate then
        moveDown fuel { f with here := ⟨next.fate, f.here.items ++ next.items⟩, after := rest }
      else moveDown fuel { f with before := next :: f.before, after := rest }

/-- The room that moves have: each uses up an item or a run. -/
def room (runs : List (Run α)) : Nat :=
  runs.length + (runs.flatMap (·.items)).length

def settleFrom (fate : Fate) (moves : Nat) : Nat → List (Run α) → List (Run α) → List (Run α)
  | 0, before, after => before.reverse ++ after
  | _, before, [] => before.reverse
  | fuel + 1, before, r :: rest =>
    if r.fate = fate then
      let f := moveDown moves (moveUp moves ⟨before, r, rest⟩)
      settleFrom fate moves fuel (f.here :: f.before) f.after
    else settleFrom fate moves fuel (r :: before) rest

/-- Moves each run of a kind up and then down as far as it goes. -/
def settle (fate : Fate) (runs : List (Run α)) : List (Run α) :=
  settleFrom fate (room runs) (room runs) [] runs

end EditScript

def editScript {α : Type} [DecidableEq α] (as bs : List α) : List (Run α) :=
  EditScript.settle .added (EditScript.settle .removed (EditScript.raw as bs))

end ClientGen.Text
