import ClientGen.Code.Render
import ClientGen.Code.Words

/-! # Layout

Rendered code as it goes into a file: a line for each piece, indented by the blocks around it, and
no blank lines. Code with an unsound word is rejected.
-/
namespace ClientGen.Code

def isComment (line : List Char) : Bool :=
  ['/', '/'].isPrefixOf line

def opensBlock (line : List Char) : Bool :=
  line.getLast? == some '\x7b' && !isComment line

def closesBlock (line : List Char) : Bool :=
  line.head? == some '\x7d'

/-- An empty block goes on one line. -/
def joinEmptyBlocks : List (List Char) → List (List Char)
  | a :: b :: rest =>
    if opensBlock a && closesBlock b then (a ++ b) :: joinEmptyBlocks rest
    else a :: joinEmptyBlocks (b :: rest)
  | lines => lines

def indentation (depth : Nat) : List Char :=
  List.replicate (4 * depth) ' '

def indent (depth : Nat) : List (List Char) → List (List Char)
  | [] => []
  | line :: rest =>
    let here := if closesBlock line then depth - 1 else depth
    (indentation here ++ line) :: indent (if opensBlock line then here + 1 else here) rest

def layOut (code : String) : String :=
  let lines := (code.toList.splitOn '\n').filter (! ·.isEmpty)
  String.ofList ((indent 0 (joinEmptyBlocks lines)).flatMap (· ++ ['\n']))

def Word.complaint : Word → String
  | name text => "not a name: " ++ text
  | path text => "not a path: " ++ text
  | place text => "not a place: " ++ text
  | tokens text => "not code: " ++ text
  | doc line => "not a line: " ++ line

/-- The file of a module, or what is wrong with it. -/
def Module.format (m : Module) : Except String String :=
  match m.words.find? (! ·.isSound) with
  | some w => .error w.complaint
  | none => .ok (layOut m.render)

end ClientGen.Code
