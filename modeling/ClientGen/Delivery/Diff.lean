import ClientGen.Text.EditScript

/-! # Diffs

How the text of a file changes, line by line, with a few lines of context around each change.
-/
namespace ClientGen.Diff
open ClientGen.Text (Run)

/-! ## Lines -/

/-- `cur` holds what was read of a line, backwards. A line keeps its end. -/
def linesFrom (cur : List Char) : List Char → List String
  | [] => if cur.isEmpty then [] else [String.ofList cur.reverse]
  | '\r' :: '\n' :: rest => String.ofList ('\n' :: '\r' :: cur).reverse :: linesFrom [] rest
  | c :: rest =>
    if c = '\n' ∨ c = '\r' then String.ofList (c :: cur).reverse :: linesFrom [] rest
    else linesFrom (c :: cur) rest

def lines (text : String) : List String :=
  linesFrom [] text.toList

/-! ## Hunks -/

inductive Block
  | same (lines : List String)
  | change (removed added : List String)
  deriving DecidableEq, Repr

/-- Neighbouring runs as blocks: in a change, what goes stands before what comes. -/
def blocks : List (Run String) → List Block
  | [] => []
  | ⟨.same, ls⟩ :: rest =>
    match blocks rest with
    | .same more :: later => .same (ls ++ more) :: later
    | later => .same ls :: later
  | ⟨.removed, ls⟩ :: rest =>
    match blocks rest with
    | .change removed added :: later => .change (ls ++ removed) added :: later
    | later => .change ls [] :: later
  | ⟨.added, ls⟩ :: rest =>
    match blocks rest with
    | .change removed added :: later => .change removed (ls ++ added) :: later
    | later => .change [] ls :: later

abbrev Hunk := List Block

/-- Lines of context on either side of a change. -/
def context : Nat := 3

def keepLast (n : Nat) (ls : List String) : List String :=
  ls.drop (ls.length - n)

def trimFirst : List Block → List Block
  | .same ls :: rest => .same (keepLast context ls) :: rest
  | bs => bs

def trimLast (bs : List Block) : List Block :=
  match bs.getLast? with
  | some (.same ls) => bs.dropLast ++ [.same (ls.take context)]
  | _ => bs

def isChange : Block → Bool
  | .change .. => true
  | .same _ => false

/-- Cuts where more lines stay than the context of two changes; `cur` is the hunk so far. -/
def hunksFrom (cur : Hunk) : List Block → List Hunk
  | [] => if cur.any isChange then [cur] else []
  | .same ls :: rest =>
    if ls.length > 2 * context then
      (cur ++ [.same (ls.take context)]) :: hunksFrom [.same (keepLast context ls)] rest
    else hunksFrom (cur ++ [.same ls]) rest
  | b :: rest => hunksFrom (cur ++ [b]) rest

def hunks (old new : String) : List Hunk :=
  hunksFrom [] (trimLast (trimFirst (blocks (Text.editScript (lines old) (lines new)))))

/-! ## As text -/

/-- A line that has no end gets one. -/
def endLine (line : String) : String :=
  match line.toList.getLast? with
  | some '\n' | some '\r' => line
  | _ => line ++ "\n"

def marked (mark : String) (ls : List String) : String :=
  String.join (ls.map fun l => mark ++ endLine l)

def renderBlock : Block → String
  | .same ls => marked " " ls
  | .change removed added => marked "-" removed ++ marked "+" added

def renderHunk (h : Hunk) : String :=
  String.join (h.map renderBlock)

/-- The change of a file from what it holds, if it exists, to a new text. -/
def render (name : String) (old : Option String) (new : String) : String :=
  let label := if old.isSome then "current" else "missing"
  "--- " ++ name ++ " (" ++ label ++ ")\n+++ " ++ name ++ " (new)\n" ++
    "...\n".intercalate ((hunks (old.getD "") new).map renderHunk)

end ClientGen.Diff
