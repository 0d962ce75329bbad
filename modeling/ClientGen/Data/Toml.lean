import ClientGen.Data.Toml.Statement

/-! # Tables of a TOML text

The statements of a text define one tree. A table may be opened once by name; a path through it may
define tables below it; a dotted key extends only tables that dotted keys began; and a value, inline
tables included, is closed once written.
-/
namespace ClientGen.Toml

inductive TableKind
  /-- Opened by its own header. -/
  | opened
  /-- Known only from the headers of tables below it. -/
  | implied
  /-- Begun by a dotted key. -/
  | dotted
  deriving DecidableEq

inductive Entry
  | leaf (t : Tree)
  | table (kind : TableKind) (entries : List (String × Entry))
  /-- An array of tables with its last element apart. -/
  | elements (before : List (List (String × Entry))) (last : List (String × Entry))

abbrev Entries := List (String × Entry)

def setEntry (name : String) (e : Entry) : Entries → Entries
  | [] => [(name, e)]
  | (k, old) :: rest => if k = name then (k, e) :: rest else (k, old) :: setEntry name e rest

/-- Changes the entries at the end of a path that headers walk, last elements of arrays included. -/
def atHeader (change : Entries → Option Entries) : List String → Entries → Option Entries
  | [], es => change es
  | name :: path, es =>
    match es.lookup name with
    | none => (atHeader change path []).map fun sub => setEntry name (.table .implied sub) es
    | some (.table kind sub) =>
      (atHeader change path sub).map fun sub => setEntry name (.table kind sub) es
    | some (.elements before last) =>
      (atHeader change path last).map fun last => setEntry name (.elements before last) es
    | some (.leaf _) => none

/-- Assigns below the table that is open. Only the last part of the path may be new to a table that
dotted keys did not begin. -/
def assign (e : Entry) : Bool → List String → Entries → Option Entries
  | _, [], _ => none
  | extensible, [name], es =>
    if extensible ∧ (es.lookup name).isNone then some (setEntry name e es) else none
  | _, name :: path, es =>
    match es.lookup name with
    | none => (assign e true path []).map fun sub => setEntry name (.table .dotted sub) es
    | some (.table .opened _) => none
    | some (.table kind sub) =>
      (assign e (kind = .dotted) path sub).map fun sub => setEntry name (.table kind sub) es
    | some _ => none

def openTable (name : String) (es : Entries) : Option Entries :=
  match es.lookup name with
  | none => some (setEntry name (.table .opened []) es)
  | some (.table .implied sub) => some (setEntry name (.table .opened sub) es)
  | some _ => none

def openElement (name : String) (es : Entries) : Option Entries :=
  match es.lookup name with
  | none => some (setEntry name (.elements [] []) es)
  | some (.elements before last) => some (setEntry name (.elements (before ++ [last]) []) es)
  | some _ => none

mutual

def Entry.tree : Entry → Tree
  | .leaf t => t
  | .table _ es => .object (membersOf es)
  | .elements before last => .list (elementsOf before ++ [.object (membersOf last)])

def membersOf : List (String × Entry) → List (Key × Tree)
  | [] => []
  | (k, e) :: es => (.text k, e.tree) :: membersOf es

def elementsOf : List (List (String × Entry)) → List Tree
  | [] => []
  | es :: rest => .object (membersOf es) :: elementsOf rest

end

mutual

def Value.tree? : Value → Option Tree
  | .leaf t => some t
  | .array vs => (itemTrees vs).map .list
  | .inlineTable es => (inlineEntries es []).map fun es => .object (membersOf es)

def itemTrees : List Value → Option (List Tree)
  | [] => some []
  | v :: vs => do return (← v.tree?) :: (← itemTrees vs)

def inlineEntries : List (List String × Value) → Entries → Option Entries
  | [], es => some es
  | (path, v) :: rest, es => do
    inlineEntries rest (← assign (.leaf (← v.tree?)) true path es)

end

/-- The entries so far and the path of the table that is open. -/
abbrev Document := Entries × List String

def step (d : Document) : Statement → Option Document
  | .table path => do
    let name ← path.getLast?
    return (← atHeader (openTable name) path.dropLast d.1, path)
  | .element path => do
    let name ← path.getLast?
    return (← atHeader (openElement name) path.dropLast d.1, path)
  | .assign path v => do
    let e := Entry.leaf (← v.tree?)
    return (← atHeader (assign e true path) d.2 d.1, d.2)

def read? (text : String) : Option Tree := do
  let (es, _) ← (← statements? text).foldlM step ([], [])
  return (Entry.table .opened es).tree

end ClientGen.Toml
