import ClientGen.Delivery.Storage

/-! # Delivery

Rendered files on their way to disk: writing those that changed, or comparing them with what is
there. A file that the formatter rejects is kept beside its place for inspection, and reported once
the others are delivered.
-/
namespace ClientGen

/-- What a formatter says of a file: its text, or why it has none. -/
abbrev Verdict := Except String String

inductive Rendered
  | formatted (text : String)
  | rejected (raw message : String)
  deriving DecidableEq, Repr

structure Artifact where
  path : Path
  rendered : Rendered
  deriving DecidableEq, Repr

/-- The header goes in front whatever the verdict, as a formatter would drop it. -/
def Artifact.of (path : Path) (header source : String) : Verdict → Artifact
  | .ok text => ⟨path, .formatted (header ++ text)⟩
  | .error message => ⟨path, .rejected (header ++ source) message⟩

structure FormatFailure where
  path : Path
  /-- Where the raw text was saved. -/
  unformatted : Path
  message : String
  deriving DecidableEq, Repr

inductive DeliveryError
  | unreadable (path : Path)
  | unwritable (path : Path)
  | rejected (failures : List FormatFailure)
  deriving DecidableEq, Repr

def DeliveryError.message : DeliveryError → String
  | unreadable path => "failed to read " ++ path
  | unwritable path => "failed to write " ++ path
  | rejected failures =>
    toString failures.length ++ " generated file(s) failed to format: " ++
      ", ".intercalate (failures.map fun f => f.path ++ " (" ++ f.message ++ ")")

structure WriteSummary where
  written : Nat
  unchanged : Nat
  deriving DecidableEq, Repr

/-- A file that is not what it would be if generated now. -/
structure Drift where
  path : Path
  /-- `none` if the file does not exist. -/
  current : Option String
  expected : String
  deriving DecidableEq, Repr

namespace Delivery
variable {m : Type → Type} [Monad m] [Storage m]

/-- Fails with an error unless an operation succeeds. -/
def orFail (error : DeliveryError) (op : m Bool) : ExceptT DeliveryError m Unit := do
  if ← op then return () else throw error

def ensureFolderOf (path : Path) : ExceptT DeliveryError m Unit :=
  match Path.parent? path with
  | none => return ()
  | some folder =>
    if folder.isEmpty then return ()
    else orFail (.unwritable folder) (Storage.makeFolder folder)

/-- Writes a file unless it holds the text already; says whether it wrote. -/
def put (path : Path) (text : String) : ExceptT DeliveryError m Bool := do
  let current ← Storage.read (m := m) path
  if current = .text text then return false
  else
    ensureFolderOf path
    orFail (.unwritable path) (Storage.write path text)
    return true

/-- Removes what was kept of an earlier rejected version. -/
def clearUnformatted (path : Path) : ExceptT DeliveryError m Unit := do
  let stale := Path.unformatted path
  if ← Storage.isPresent (m := m) stale then orFail (.unwritable stale) (Storage.remove stale)
  else return ()

def writeFormatted : List Artifact → ExceptT DeliveryError m WriteSummary
  | [] => return ⟨0, 0⟩
  | ⟨path, .formatted text⟩ :: rest => do
    let wrote ← put path text
    clearUnformatted path
    let later ← writeFormatted rest
    return if wrote then { later with written := later.written + 1 }
      else { later with unchanged := later.unchanged + 1 }
  | ⟨_, .rejected ..⟩ :: rest => writeFormatted rest

def saveRejected : List Artifact → ExceptT DeliveryError m (List FormatFailure)
  | [] => return []
  | ⟨path, .rejected raw message⟩ :: rest => do
    let unformatted := Path.unformatted path
    discard (put unformatted raw)
    return ⟨path, unformatted, message⟩ :: (← saveRejected rest)
  | ⟨_, .formatted _⟩ :: rest => saveRejected rest

def failIfRejected (artifacts : List Artifact) : ExceptT DeliveryError m Unit := do
  let failures ← saveRejected artifacts
  if failures.isEmpty then return () else throw (.rejected failures)

/-- Brings the files up to date. -/
def write (artifacts : List Artifact) : ExceptT DeliveryError m WriteSummary := do
  let summary ← writeFormatted artifacts
  failIfRejected artifacts
  return summary

def driftOf? (path : Path) (expected : String) : ExceptT DeliveryError m (Option Drift) := do
  match ← Storage.read (m := m) path with
  | .text current => return if current = expected then none else some ⟨path, some current, expected⟩
  | .missing => return some ⟨path, none, expected⟩
  | .unreadable => throw (.unreadable path)

def drifts : List Artifact → ExceptT DeliveryError m (List Drift)
  | [] => return []
  | ⟨path, .formatted text⟩ :: rest => do
    let drift ← driftOf? path text
    return drift.toList ++ (← drifts rest)
  | ⟨_, .rejected ..⟩ :: rest => drifts rest

/-- Compares the files with those on disk, which stay as they are. -/
def compare (artifacts : List Artifact) : ExceptT DeliveryError m (List Drift) := do
  failIfRejected artifacts
  drifts artifacts

end Delivery
end ClientGen
