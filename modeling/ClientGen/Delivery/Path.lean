import ClientGen.Text.Cut

/-! # Slash-separated paths

A path is kept as it was written. Its components leave out empty pieces and every `.` but a leading
one, and remember where in the text they stand, so that a parent is always a prefix of the text.
-/
namespace ClientGen

abbrev Path := String

namespace Path

inductive Part
  | root
  | current
  | parent
  | name (text : String)
  deriving DecidableEq, Repr

/-- A part with the positions of its first character and of the character after its last. -/
structure Component where
  part : Part
  start : Nat
  stop : Nat
  deriving DecidableEq, Repr

/-- `first` marks the piece at the very beginning of a relative path. -/
def partOf (first : Bool) (piece : List Char) : Option Part :=
  if piece.isEmpty then none
  else if piece = ['.'] then (if first then some .current else none)
  else if piece = ['.', '.'] then some .parent
  else some (.name (String.ofList piece))

def componentsFrom (first : Bool) (start : Nat) : List (List Char) → List Component
  | [] => []
  | piece :: rest =>
    let stop := start + piece.length
    let later := componentsFrom false (stop + 1) rest
    match partOf first piece with
    | some part => ⟨part, start, stop⟩ :: later
    | none => later

def isAbsolute (p : Path) : Bool :=
  p.toList.head? = some '/'

def components (p : Path) : List Component :=
  if isAbsolute p then ⟨.root, 0, 1⟩ :: componentsFrom false 1 (p.toList.drop 1 |>.splitOn '/')
  else componentsFrom true 0 (p.toList.splitOn '/')

def slice (p : Path) (start stop : Nat) : String :=
  String.ofList ((p.toList.take stop).drop start)

def fileName? (p : Path) : Option String :=
  match (components p).getLast? with
  | some ⟨.name text, _, _⟩ => some text
  | _ => none

/-- The path without its last component; the root and the empty path have no parent. -/
def parent? (p : Path) : Option Path :=
  match (components p).reverse with
  | [] => none
  | ⟨.root, _, _⟩ :: _ => none
  | _ :: [] => some ""
  | _ :: before :: _ => some (slice p 0 before.stop)

def join (base rel : Path) : Path :=
  if isAbsolute rel || base.isEmpty then rel
  else if base.toList.getLast? = some '/' then base ++ rel
  else base ++ "/" ++ rel

/-- The path with another last component; a path that names no file gets one more. -/
def withFileName (p : Path) (name : String) : Path :=
  match fileName? p with
  | some _ => join ((parent? p).getD "") name
  | none => join p name

/-- What follows the last dot of the file name, unless that dot begins the name. -/
def extension? (p : Path) : Option String :=
  match fileName? p with
  | none => none
  | some name =>
    let reversed := name.toList.reverse
    match reversed.dropWhile (· != '.') with
    | [] => none
    | _ :: stem =>
      if stem.isEmpty then none
      else some (String.ofList (reversed.takeWhile (· != '.')).reverse)

/-- The path as messages show it: without a leading `.`. -/
def shown (p : Path) : String :=
  match components p with
  | ⟨.current, _, _⟩ :: rest =>
    match rest.head?, rest.getLast? with
    | some first, some last => slice p first.start last.stop
    | _, _ => ""
  | _ => p

/-- Where the raw text of a rejected file goes: beside the file, under a longer name. -/
def unformatted (p : Path) : Path :=
  withFileName p ((fileName? p).getD "" ++ ".unformatted")

end Path
end ClientGen
