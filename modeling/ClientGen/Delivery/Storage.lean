import ClientGen.Data.Dict
import ClientGen.Delivery.Path

/-! # Storage

What the program does with files, as operations of any monad, and file systems as values, whose
operations are steps from one file system to the next.
-/
namespace ClientGen

inductive Reading
  | text (contents : String)
  | missing
  /-- Something that is not a file is there, or on the way. -/
  | unreadable
  deriving DecidableEq, Repr

/-- The operations that change something say whether they could. -/
class Storage (m : Type → Type) where
  read : Path → m Reading
  isPresent : Path → m Bool
  /-- Makes a folder and the folders above it. -/
  makeFolder : Path → m Bool
  write : Path → String → m Bool
  /-- Removes a file. -/
  remove : Path → m Bool

/-- Files and folders by their names from the top, joined by slashes. The top is not listed. -/
structure FileSystem where
  files : Dict String
  folders : Dict Unit
  deriving DecidableEq

namespace FileSystem

def empty : FileSystem := ⟨.empty, .empty⟩

/-! ## Places -/

def step (names : List String) (c : Path.Component) : Option (List String) :=
  match c.part with
  | .root => none
  | .current => some names
  | .parent => if names.isEmpty then none else some names.dropLast
  | .name n => some (names ++ [n])

/-- The names on the way to a path, if it leads to a place in the file system. -/
def locate (p : Path) : Option (List String) :=
  if p.isEmpty then none else (Path.components p).foldlM step []

def key (names : List String) : String :=
  "/".intercalate names

def hasFile (fs : FileSystem) (names : List String) : Bool :=
  fs.files.contains (key names)

def hasFolder (fs : FileSystem) (names : List String) : Bool :=
  names.isEmpty || fs.folders.contains (key names)

/-- The places on the way to a place, itself included, without the top. -/
def wayTo : List String → List (List String)
  | [] => []
  | n :: rest => [n] :: (wayTo rest).map (n :: ·)

/-- Whether a file is where a folder has to be. -/
def isBlocked (fs : FileSystem) (names : List String) : Bool :=
  (wayTo names).any fs.hasFile

/-- A path that ends in a slash cannot be a file. -/
def asksForFolder (p : Path) : Bool :=
  match p.toList.reverse with
  | '/' :: _ | '.' :: '/' :: _ => true
  | _ => false

/-! ## Operations -/

def read (fs : FileSystem) (p : Path) : Reading :=
  match locate p with
  | none => .missing
  | some names =>
    if fs.hasFolder names then .unreadable
    else
      match fs.files.get? (key names) with
      | some contents => if asksForFolder p then .unreadable else .text contents
      | none => if fs.isBlocked names then .unreadable else .missing

def isPresent (fs : FileSystem) (p : Path) : Bool :=
  match locate p with
  | none => false
  | some names => fs.hasFolder names || (fs.hasFile names && !asksForFolder p)

def makeFolder? (fs : FileSystem) (p : Path) : Option FileSystem :=
  if p.isEmpty then some fs
  else do
    let names ← locate p
    if fs.isBlocked names then none
    else some { fs with folders := (wayTo names).foldl (fun d n => d.insert (key n) ()) fs.folders }

def write? (fs : FileSystem) (p : Path) (contents : String) : Option FileSystem := do
  let names ← locate p
  if fs.hasFolder names || asksForFolder p || !fs.hasFolder names.dropLast then none
  else some { fs with files := fs.files.insert (key names) contents }

def remove? (fs : FileSystem) (p : Path) : Option FileSystem := do
  let names ← locate p
  if fs.hasFile names && !asksForFolder p then
    some { fs with files := fs.files.erase (key names) }
  else none

/-- Removes a file, or a folder with all that is in it. -/
def removeTree? (fs : FileSystem) (p : Path) : Option FileSystem :=
  match fs.remove? p with
  | some fs => some fs
  | none => do
    let names ← locate p
    if names.isEmpty || !fs.hasFolder names then none
    else
      let outside (k : String) : Bool :=
        k != key names && !(key names ++ "/").toList.isPrefixOf k.toList
      some ⟨fs.files.filter fun k _ => outside k, fs.folders.filter fun k _ => outside k⟩

/-- All files, and all folders with a slash at the end. -/
def listing (fs : FileSystem) : List String :=
  Dict.sortedNames (fs.files.keys ++ fs.folders.keys.map (· ++ "/"))

/-! ## As storage -/

/-- A step that may fail, and then changes nothing. -/
def attempt (step : FileSystem → Option FileSystem) : StateM FileSystem Bool := fun fs =>
  match step fs with
  | some fs => (true, fs)
  | none => (false, fs)

instance : Storage (StateM FileSystem) where
  read p := fun fs => (fs.read p, fs)
  isPresent p := fun fs => (fs.isPresent p, fs)
  makeFolder p := attempt (·.makeFolder? p)
  write p contents := attempt (·.write? p contents)
  remove p := attempt (·.remove? p)

end FileSystem
end ClientGen
