import ClientGen.Delivery.Diff
import ClientGen.Generator

/-! # Runs

Passes one after the other, each written to its output or compared with it. A pass with files that
the formatter rejects does not keep the later ones from running; trouble with storage does.
-/
namespace ClientGen

structure Report where
  /-- Files that differ from what they would be, in the order of the passes. -/
  drifts : List Drift
  rejected : List FormatFailure
  /-- What ended the run before its last pass. -/
  stopped : Option DeliveryError
  warnings : List Warning

namespace Report

def empty : Report := ⟨[], [], none, []⟩

/-- The report of a pass, which comes first, and of those after it. -/
def append (r s : Report) : Report :=
  ⟨r.drifts ++ s.drifts, r.rejected ++ s.rejected, s.stopped, r.warnings ++ s.warnings⟩

/-- Everything is formatted and up to date. -/
def isClean (r : Report) : Bool :=
  r.drifts.isEmpty && r.rejected.isEmpty && r.stopped.isNone

/-- The changes that would bring the files up to date. -/
def changes (r : Report) : String :=
  String.join (r.drifts.map fun d => Diff.render (Path.shown d.path) d.current d.expected)

end Report

namespace Run
variable {m : Type → Type} [Monad m] [Storage m]

/-- Compares or writes the files of a pass. Written files are up to date. -/
def deliver (check : Bool) (artifacts : List Artifact) : ExceptT DeliveryError m (List Drift) := do
  if check then Delivery.compare artifacts
  else
    discard (Delivery.write artifacts)
    return []

/-- What a pass comes to, and whether others can follow it. -/
def passReport (warnings : List Warning) : Except DeliveryError (List Drift) → Report
  | .ok drifts => ⟨drifts, [], none, warnings⟩
  | .error (.rejected failures) => ⟨[], failures, none, warnings⟩
  | .error e => ⟨[], [], some e, warnings⟩

def passes (g : Generator) (check : Bool) (format : Formatter) :
    List (Sdk.Pass × Path) → m Report
  | [] => return .empty
  | (pass, output) :: rest => do
    let rendered := g.artifacts pass output format
    let report := passReport rendered.warnings (← (deliver check rendered.value).run)
    if report.stopped.isSome then return report
    else return report.append (← passes g check format rest)

end Run
end ClientGen
