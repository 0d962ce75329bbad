import ClientGen.Delivery.Path
import ClientGen.Sdk.Pass

/-! # The command line

What the arguments ask for. A command names the passes to run; its options follow it, each at most
once. An option's value is the next argument or attached to the option, and does not start with a
hyphen unless it is attached or a hyphen alone.
-/
namespace ClientGen.CommandLine
open Sdk (Pass ModulePaths)

/-- Options that take a value. -/
inductive Setting
  | spec
  | output
  | config
  | modelsModule
  | servicesModule
  | clientModule
  deriving DecidableEq, Repr

namespace Setting

def all : List Setting := [spec, output, config, modelsModule, servicesModule, clientModule]

def name : Setting → String
  | spec => "spec"
  | output => "output"
  | config => "config"
  | modelsModule => "models-module"
  | servicesModule => "services-module"
  | clientModule => "client-module"

/-- Paths cannot be empty. -/
def isPath : Setting → Bool
  | spec | output | config => true
  | modelsModule | servicesModule | clientModule => false

end Setting

inductive UsageError
  | unexpected (argument : String)
  | repeated (option : String)
  | valueMissing (option : String)
  | valueNotAllowed (option : String)
  deriving DecidableEq, Repr

def UsageError.message : UsageError → String
  | unexpected argument => "unexpected argument '" ++ argument ++ "'"
  | repeated option => "option '" ++ option ++ "' given more than once"
  | valueMissing option => "option '" ++ option ++ "' needs a value"
  | valueNotAllowed option => "option '" ++ option ++ "' takes no value"

structure Options where
  values : List (Setting × String)
  check : Bool
  deriving DecidableEq, Repr

def Options.none : Options := ⟨[], false⟩

/-- Which passes a command runs. -/
inductive Command
  | pass (p : Pass)
  | all
  deriving DecidableEq, Repr

def Command.named? (name : String) : Option Command :=
  if name = "all" then some .all else (Pass.all.find? (·.name == name)).map .pass

/-- What is to be done; options are `none` where help is asked for. -/
inductive Request
  | help
  | run (command : Command) (options : Options)
  deriving DecidableEq, Repr

/-! ## Options -/

def set (o : Options) (s : Setting) (value : String) : Except UsageError Options :=
  if s.isPath && value.isEmpty then throw (.valueMissing s.name)
  else if (o.values.lookup s).isSome then throw (.repeated s.name)
  else return { o with values := (s, value) :: o.values }

/-- Whether an argument can be the value of the option before it. -/
def isValue (arg : String) : Bool :=
  arg == "-" || arg.toList.head? != some '-'

/-- An argument taken apart. -/
inductive Argument
  /-- `--`, after which nothing is an option. -/
  | separator
  | help
  | check
  | setting (s : Setting) (attached : Option String)
  | wrong (e : UsageError)

def longArgument (body : List Char) : Argument :=
  let name := String.ofList (body.takeWhile (· != '='))
  let attached := match body.dropWhile (· != '=') with
    | [] => none
    | _ :: value => some (String.ofList value)
  match Setting.all.find? (·.name == name) with
  | some s => .setting s attached
  | none =>
    if name = "check" ∨ name = "help" then
      if attached.isSome then .wrong (.valueNotAllowed name)
      else if name = "check" then .check else .help
    else .wrong (.unexpected ("--" ++ String.ofList body))

def shortArgument (arg : String) : List Char → Argument
  | 'h' :: _ => .help
  | ['o'] => .setting .output none
  | 'o' :: '=' :: value => .setting .output (some (String.ofList value))
  | 'o' :: value => .setting .output (some (String.ofList value))
  | _ => .wrong (.unexpected arg)

def argument (arg : String) : Argument :=
  match arg.toList with
  | ['-', '-'] => .separator
  | '-' :: '-' :: body => longArgument body
  | '-' :: c :: body => shortArgument arg (c :: body)
  | _ => .wrong (.unexpected arg)

/-- The options in the order of the arguments; `none` when one of them asks for help. -/
def options (o : Options) : List String → Except UsageError (Option Options)
  | [] => return some o
  | arg :: rest =>
    match argument arg with
    | .separator =>
      match rest with
      | [] => return some o
      | next :: _ => throw (.unexpected next)
    | .help => return none
    | .check => if o.check then throw (.repeated "check") else options { o with check := true } rest
    | .setting s (some value) => do options (← set o s value) rest
    | .setting s none =>
      match rest with
      | [] => throw (.valueMissing s.name)
      | value :: rest =>
        if isValue value then do options (← set o s value) rest else throw (.valueMissing s.name)
    | .wrong e => throw e

/-! ## Commands -/

def helpTopic (name : String) : Bool :=
  name == "help" || (Command.named? name).isSome

/-- Help and version, also first in a cluster of letters. -/
def asksForHelp (arg : String) : Bool :=
  match arg.toList with
  | '-' :: 'h' :: _ | '-' :: 'V' :: _ => true
  | _ => arg == "--help" || arg == "--version"

def parse : List String → Except UsageError Request
  | [] => return .help
  | arg :: rest =>
    match Command.named? arg with
    | some command => do
      match ← options .none rest with
      | some o => return .run command o
      | none => return .help
    | none =>
      if asksForHelp arg then return .help
      else if arg = "--" ∨ arg = "help" then
        match rest with
        | [] => return .help
        | [topic] =>
          if arg = "help" && helpTopic topic then return .help else throw (.unexpected topic)
        | topic :: extra :: _ =>
          throw (.unexpected (if arg = "help" && helpTopic topic then extra else topic))
      else throw (.unexpected arg)

/-! ## What a run needs -/

namespace Options

def value? (o : Options) (s : Setting) : Option String :=
  o.values.lookup s

def spec (o : Options) : Path :=
  (o.value? .spec).getD "openapi.json"

def paths (o : Options) : ModulePaths :=
  let d := ModulePaths.default
  ⟨(o.value? .modelsModule).getD d.models, (o.value? .servicesModule).getD d.services,
    (o.value? .clientModule).getD d.client⟩

end Options

/-- The passes of a command with their outputs. All passes share one directory. -/
def plan (command : Command) (o : Options) : List (Pass × Path) :=
  match command with
  | .pass p => [(p, (o.value? .output).getD p.defaultOutput)]
  | .all => Pass.all.map fun p => (p, Path.join ((o.value? .output).getD ".") p.defaultOutput)

def usageLines : List String := [
  "Usage: sdkgen <models|services|builder|all> [OPTIONS]",
  "",
  "Options:",
  "      --spec <PATH>             OpenAPI document, JSON or YAML (default: openapi.json)",
  "  -o, --output <PATH>           Output directory, or file for the builder pass",
  "      --config <PATH>           Generator configuration (default: the built-in one)",
  "      --check                   Compare with the files on disk instead of writing them",
  "      --models-module <PATH>    Module path of the generated models",
  "      --services-module <PATH>  Module path of the generated services",
  "      --client-module <PATH>    Module path of the runtime client"]

def usage : String :=
  String.join (usageLines.map (· ++ "\n"))

end ClientGen.CommandLine
