import ClientGen.Code.Layout
import ClientGen.CommandLine
import ClientGen.Run

/-! # Outcomes

What the program prints and how it ends: with status 0 if all is well, 1 if files are out of date or
could not be made, and 2 if the arguments make no sense.
-/
namespace ClientGen.CommandLine

inductive Complaint
  | usage (e : UsageError)
  | failed (message : String)
  | rejected (f : FormatFailure)
  | outOfDate (count : Nat)
  deriving DecidableEq, Repr

def Complaint.text : Complaint → String
  | usage e => "error: " ++ e.message
  | failed message => "Error: " ++ message
  | rejected f =>
    "Error: " ++ Path.shown f.path ++ " failed to format: " ++ f.message ++ " (raw output in " ++
      Path.shown f.unformatted ++ ")"
  | outOfDate count => toString count ++ " generated file(s) are out of date"

structure Outcome where
  status : Nat
  output : String
  warnings : List Warning
  complaints : List Complaint

namespace Outcome

def failure (message : String) : Outcome :=
  ⟨1, "", [], [.failed message]⟩

/-- An early end is all that is complained of. -/
def complaintsOf (r : Report) : List Complaint :=
  match r.stopped with
  | some e => [.failed e.message]
  | none =>
    r.rejected.map .rejected ++ if r.drifts.isEmpty then [] else [.outOfDate r.drifts.length]

def ofReport (r : Report) : Outcome :=
  ⟨if r.isClean then 0 else 1, r.changes, r.warnings, complaintsOf r⟩

end Outcome

variable {m : Type → Type} [Monad m] [Storage m]

def execute (command : Command) (o : Options) : m Outcome := do
  match ← (Generator.load o.spec (o.value? .config) o.paths).run with
  | .error e => return .failure e.message
  | .ok g => return .ofReport (← Run.passes g o.check Code.Module.format (plan command o))

/-- Does what the arguments ask for. -/
def run (args : List String) : m Outcome := do
  match parse args with
  | .error e => return ⟨2, "", [], [.usage e]⟩
  | .ok .help => return ⟨0, usage, [], []⟩
  | .ok (.run command o) => execute command o

end ClientGen.CommandLine
