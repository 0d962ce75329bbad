import ClientGen.Operation

/-! # Route trees

The paths of operations folded into one tree of segments. Segments that are one placeholder share a
branch whatever the placeholder is called, so `/x/{a}/y` and `/x/{b}/y` end at one node; a segment
such as `{name}.json` is a literal. A node is known by the keys of the segments on the way to it.
-/
namespace ClientGen

inductive Segment
  | root
  | literal (text : String)
  /-- Named and typed by the first operation that passes. -/
  | param (name : String) (type : TypeRef)
  deriving DecidableEq, Repr

/-- The key of a segment that is one placeholder. -/
def Segment.paramKey : String := "\x7b\x7d"

def Segment.key : Segment → String
  | root => ""
  | literal text => text
  | param .. => paramKey

/-- Segments as a template writes them. -/
def Segment.written : Segment → String
  | root => ""
  | literal text => text
  | param name _ => "\x7b" ++ name ++ "\x7d"

/-! ## The way of one operation -/

/-- A placeholder takes its type from the parameter at its position in the path. -/
def segmentsOf (params : List PathParam) : List String → List Segment
  | [] => []
  | raw :: rest =>
    let segment := match Template.wholePlaceholder? raw with
      | some name => .param name ((params.head?.map (·.type)).getD .text)
      | none => .literal raw
    segment :: segmentsOf (params.drop (Template.placeholders raw).length) rest

def Operation.segments (op : Operation) : List Segment :=
  segmentsOf op.pathParams (Template.segments op.path)

def Operation.keys (op : Operation) : List String :=
  op.segments.map Segment.key

/-- Each segment with the keys that lead to it, its own included. -/
def branches (above : List String) : List Segment → List (List String × Segment)
  | [] => []
  | s :: rest => (above ++ [s.key], s) :: branches (above ++ [s.key]) rest

/-! ## The tree -/

structure RouteNode where
  keys : List String
  segment : Segment
  /-- Positions of the operations whose paths end here. -/
  operations : List Nat
  deriving DecidableEq, Repr

/-- The nodes in the order in which operations first pass them, the root first. A node's position is
its id. -/
structure RouteTree where
  nodes : List RouteNode
  deriving DecidableEq, Repr

namespace RouteTree

def root : Nat := 0

/-! ### Building -/

def grow (nodes : List RouteNode) (branch : List String × Segment) : List RouteNode :=
  if nodes.any (·.keys == branch.1) then nodes else nodes ++ [⟨branch.1, branch.2, []⟩]

def endingAt (ops : List Operation) (keys : List String) : List Nat :=
  (ops.zipIdx.filter fun (op, _) => op.keys == keys).map (·.2)

def build (ops : List Operation) : RouteTree where
  nodes :=
    ((ops.flatMap fun op => branches [] op.segments).foldl grow [⟨[], .root, []⟩]).map fun n =>
      { n with operations := endingAt ops n.keys }

/-! ### Looking around -/

def isEmpty (t : RouteTree) : Bool :=
  t.nodes.length ≤ 1

def keysOf (t : RouteTree) (id : Nat) : List String :=
  (t.nodes[id]?.map (·.keys)).getD []

def segmentOf (t : RouteTree) (id : Nat) : Segment :=
  (t.nodes[id]?.map (·.segment)).getD .root

def operationsAt (t : RouteTree) (id : Nat) : List Nat :=
  (t.nodes[id]?.map (·.operations)).getD []

def find? (t : RouteTree) (keys : List String) : Option Nat :=
  t.nodes.findIdx? (·.keys == keys)

def depth (t : RouteTree) (id : Nat) : Nat :=
  (t.keysOf id).length

def parent? (t : RouteTree) (id : Nat) : Option Nat :=
  match t.keysOf id with
  | [] => none
  | keys => t.find? keys.dropLast

/-- The last key of each child of `id`, with the child. -/
def children (t : RouteTree) (id : Nat) : Dict Nat :=
  .ofList (t.nodes.zipIdx.filterMap fun (n, child) =>
    match n.keys.getLast? with
    | some key => if n.keys.dropLast == t.keysOf id then some (key, child) else none
    | none => none)

def walkAt (t : RouteTree) : Nat → Nat → List Nat
  | 0, _ => []
  | fuel + 1, id => id :: (t.children id).values.flatMap (t.walkAt fuel)

/-- `start` and all below it, each before its children, children in the order of their keys. -/
def walk (t : RouteTree) (start : Nat) : List Nat :=
  t.walkAt t.nodes.length start

def stems : List String → List (List String)
  | [] => []
  | k :: rest => [k] :: (stems rest).map (k :: ·)

/-- The nodes from below the root down to `id`. -/
def lineage (t : RouteTree) (id : Nat) : List Nat :=
  (stems (t.keysOf id)).filterMap t.find?

/-- The path template of a node. -/
def template (t : RouteTree) (id : Nat) : String :=
  "/" ++ "/".intercalate ((t.lineage id).map fun n => (t.segmentOf n).written)

end RouteTree
end ClientGen
