import ClientGen.CommandLine.Outcome

/-! # The program

The command line over the files of the machine.
-/
namespace ClientGen

def succeeds (op : IO Unit) : IO Bool := do
  try
    op
    return true
  catch _ => return false

def readFile (p : Path) : IO Reading := do
  try
    return .text (← IO.FS.readFile p)
  catch
    | .noFileOrDirectory .. => return .missing
    | _ => return .unreadable

def isThere (p : Path) : IO Bool := do
  try
    discard (IO.FS.Handle.mk p .read)
    return true
  catch
    | .noFileOrDirectory .. => return false
    | .inappropriateType .. => return false
    | _ => return true

instance : Storage IO where
  read := readFile
  isPresent := isThere
  makeFolder p := succeeds (IO.FS.createDirAll p)
  write p contents := succeeds (IO.FS.writeFile p contents)
  remove p := succeeds (IO.FS.removeFile p)

def report (o : CommandLine.Outcome) : IO Unit := do
  IO.print o.output
  for w in o.warnings do IO.eprintln w.line
  for c in o.complaints do IO.eprintln c.text

end ClientGen

def main (args : List String) : IO UInt32 := do
  let outcome ← ClientGen.CommandLine.run (m := IO) args
  ClientGen.report outcome
  return UInt32.ofNat outcome.status
