import ClientGen.Data.Tree

/-! # Reading typed values off a tree

A reader of `α` is a function `Tree → Option α`. Records accept unknown members and reject repeats
of known ones. A record may also be written as the list of its members in their order; such a list
may stop early where the remaining members have defaults, and an option is then no default.
-/
namespace ClientGen

abbrev Reader (α : Type) := Tree → Option α

namespace Reader

def option (read : Reader α) : Reader (Option α) := fun t =>
  if t.isNull then some none else (read t).map some

def listOf (read : Reader α) : Reader (List α) := fun t => do
  (← t.items?).mapM read

/-- A table; the last of several values of one name counts. -/
def dictOf (read : Reader α) : Reader (Dict α) := fun t => do
  let entries ← (← t.members?).mapM fun (k, t) => do return (← k.text?, ← read t)
  return Dict.ofList entries

/-- Members in their order, repeats kept. -/
def entriesOf (read : Reader α) : Reader (List (String × α)) := fun t => do
  (← t.members?).mapM fun (k, t) => do return (← k.text?, ← read t)

/-- The first alternative that fits the value seen without expectations. -/
def either (first : Reader α) (second : Reader α) : Reader α := fun t => do
  let t ← t.resolve?
  first t <|> second t

end Reader

/-- The known members of a record. -/
structure Members where
  values : List (String × Tree)
  /-- Written as a list, where leaving out an option is an error. -/
  positional : Bool

namespace Members

def keep? (names : List String) : List (Key × Tree) → Option (List (String × Tree))
  | [] => some []
  | (k, t) :: ms => do
    let known ← k.member? names
    let later ← keep? names ms
    match known with
    | none => return later
    | some name => if (later.lookup name).isSome then none else return (name, t) :: later

def read? (names : List String) (t : Tree) : Option Members :=
  match t with
  | .list ts => if ts.length ≤ names.length then some ⟨names.zip ts, true⟩ else none
  | _ => do return ⟨← keep? names (← t.members?), false⟩

def required (m : Members) (name : String) (read : Reader α) : Option α := do
  read (← m.values.lookup name)

def optional (m : Members) (name : String) (read : Reader α) : Option (Option α) :=
  match m.values.lookup name with
  | some t => Reader.option read t
  | none => if m.positional then none else some none

def defaulted (m : Members) (name : String) (default : α) (read : Reader α) : Option α :=
  match m.values.lookup name with
  | some t => read t
  | none => some default

end Members
end ClientGen
