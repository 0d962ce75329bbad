import ClientGen.Data.Json

/-! # Trees read from text

What a JSON, YAML or TOML text says before anybody asks for types. Members keep their order and
repeats, a scalar that can be read as text or as a typed value keeps both, and a part that is
well-formed but has no value (a number out of range, say) is `broken`: it does no harm until used.
-/
namespace ClientGen

/-- A member's name. A bare word or number is a name by its text for a reader that expects text. A
reader that does not know what to expect sees no text in it, at most the position of a member. -/
inductive Key
  | text (name : String)
  | bare (source : String) (position : Option Nat)
  | untyped (position : Option Nat)
  deriving DecidableEq, Repr

inductive Tree
  | null
  | bool (b : Bool)
  | int (i : Int)
  | float (x : Binary64)
  | text (s : String)
  | scalar (source : String) (meaning : Tree)
  | broken
  | list (items : List Tree)
  | object (members : List (Key × Tree))
  deriving Repr

namespace Key

def text? : Key → Option String
  | text s => some s
  | bare s _ => some s
  | untyped _ => none

def resolve : Key → Key
  | bare _ position => untyped position
  | k => k

/-- The member of a record that this name stands for: `some none` is a member that the record does
not have, `none` a name that stands for nothing. -/
def member? (names : List String) : Key → Option (Option String)
  | text s => some (if names.contains s then some s else none)
  | bare s _ => some (if names.contains s then some s else none)
  | untyped (some n) => some names[n]?
  | untyped none => none

end Key

namespace Tree

def text? : Tree → Option String
  | text s => some s
  | scalar s _ => some s
  | _ => none

def bool? : Tree → Option Bool
  | bool b => some b
  | scalar _ (bool b) => some b
  | _ => none

def isNull : Tree → Bool
  | null => true
  | scalar _ null => true
  | _ => false

/-- Nothing written at all, which stands for an empty list or object too. -/
def isEmpty : Tree → Bool
  | scalar s _ => s.isEmpty
  | _ => false

def items? (t : Tree) : Option (List Tree) :=
  match t with
  | list ts => some ts
  | _ => if t.isEmpty then some [] else none

def members? (t : Tree) : Option (List (Key × Tree)) :=
  match t with
  | object ms => some ms
  | _ => if t.isEmpty then some [] else none

mutual

/-- The tree as a reader sees it that does not know what to expect. -/
def resolve? : Tree → Option Tree
  | scalar _ meaning => resolve? meaning
  | broken => none
  | list ts => (resolveItems ts).map list
  | object ms => (resolveMembers ms).map object
  | t => some t

def resolveItems : List Tree → Option (List Tree)
  | [] => some []
  | t :: ts => do return (← resolve? t) :: (← resolveItems ts)

def resolveMembers : List (Key × Tree) → Option (List (Key × Tree))
  | [] => some []
  | (k, t) :: ms => do return (k.resolve, ← resolve? t) :: (← resolveMembers ms)

end

mutual

/-- The plain value: the last of repeated members, nothing for a number that is not finite. -/
def json? : Tree → Option Json
  | null => some .null
  | bool b => some (.bool b)
  | int i => if Json.isWhole i then some (.int i) else none
  | float x => some (if x.isFinite then .float x else .null)
  | text s => some (.text s)
  | scalar _ meaning => json? meaning
  | broken => none
  | list ts => (jsonItems ts).map .list
  | object ms => (jsonMembers ms).map fun es => .object (Dict.ofList es).entries

def jsonItems : List Tree → Option (List Json)
  | [] => some []
  | t :: ts => do return (← json? t) :: (← jsonItems ts)

def jsonMembers : List (Key × Tree) → Option (List (String × Json))
  | [] => some []
  | (k, t) :: ms => do return (← k.text?, ← json? t) :: (← jsonMembers ms)

end

mutual

def ofJson : Json → Tree
  | .null => null
  | .bool b => bool b
  | .int i => int i
  | .float x => float x
  | .text s => text s
  | .list js => list (ofJsonItems js)
  | .object ms => object (ofJsonMembers ms)

def ofJsonItems : List Json → List Tree
  | [] => []
  | j :: js => ofJson j :: ofJsonItems js

def ofJsonMembers : List (String × Json) → List (Key × Tree)
  | [] => []
  | (k, j) :: ms => (.text k, ofJson j) :: ofJsonMembers ms

end

mutual

/-- Lists and objects nested more than `depth` deep are broken. -/
def limitDepth (depth : Nat) : Tree → Tree
  | list ts => if depth = 0 then broken else list (limitItems (depth - 1) ts)
  | object ms => if depth = 0 then broken else object (limitMembers (depth - 1) ms)
  | t => t

def limitItems (depth : Nat) : List Tree → List Tree
  | [] => []
  | t :: ts => limitDepth depth t :: limitItems depth ts

def limitMembers (depth : Nat) : List (Key × Tree) → List (Key × Tree)
  | [] => []
  | (k, t) :: ms => (k, limitDepth depth t) :: limitMembers depth ms

end

mutual

def height : Tree → Nat
  | list ts => itemsHeight ts + 1
  | object ms => membersHeight ms + 1
  | scalar _ meaning => height meaning + 1
  | _ => 0

def itemsHeight : List Tree → Nat
  | [] => 0
  | t :: ts => max (height t) (itemsHeight ts)

def membersHeight : List (Key × Tree) → Nat
  | [] => 0
  | (_, t) :: ms => max (height t) (membersHeight ms)

end

end Tree
end ClientGen
