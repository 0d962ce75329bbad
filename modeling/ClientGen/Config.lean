import ClientGen.Data.Shape
import ClientGen.Data.Toml
import ClientGen.Digest
import ClientGen.Text.Cut

/-! # Generator configuration

The tables that fix operation names and ownership, and the few knobs of the generated code. Every
pass reads the same document, and every generated file carries its fingerprint, which depends on the
values alone and not on how they were written.
-/
namespace ClientGen

/-- Tables that decide operation ids and the packages that own them. -/
structure Naming where
  /-- `METHOD:/path` to the id that replaces the declared one. -/
  operationIds : Dict String
  operationServices : Dict String
  servicePackages : Dict String
  /-- Words that claim every operation whose path or id mentions them. -/
  keywords : List String
  /-- Segments after which the next segment names the service. -/
  routingPrefixes : List String
  routingStrip : String
  deriving DecidableEq

structure Config where
  version : Nat
  naming : Naming
  /-- Schema names that are type names as they stand. -/
  preservedNames : List String
  /-- The first path segment from which navigation starts, when some path has it. -/
  rootSegment : String
  deriving DecidableEq

inductive ConfigError
  | unreadable (path : String)
  | malformed (origin : String)
  | unsupportedVersion (origin : String) (found : Nat)
  | invalidOverrideKey (origin : String) (key : String)
  deriving DecidableEq

namespace Naming

def default : Naming where
  operationIds := .empty
  operationServices := .empty
  servicePackages := .empty
  keywords := ["pulsar"]
  routingPrefixes := ["addon-providers"]
  routingStrip := "addon-"

end Naming

namespace Config

def supportedVersion : Nat := 1

def defaultPreservedNames : List String := ["WireGuard"]

def defaultRootSegment : String := "v4"

/-! ## Reading -/

def texts : Reader (List String) := .listOf Tree.text?

def textTable : Reader (Dict String) := .dictOf Tree.text?

def word32? : Reader Nat
  | .int i => if 0 ≤ i ∧ i ≤ 0xffffffff then some i.toNat else none
  | _ => none

/-- A record without members of other names. A list may be longer than the record. -/
def closedRecord? (names : List String) : Reader Members
  | .list ts => Members.read? names (.list (ts.take names.length))
  | .object ms =>
    if ms.all fun (k, _) => k.text?.any names.contains then Members.read? names (.object ms)
    else none
  | _ => none

def readNaming : Reader Naming := fun t => do
  let m ← closedRecord?
    ["operation_id_overrides", "operation_services", "service_packages", "service_keywords",
      "routing_prefixes", "routing_strip_prefix"] t
  let d := Naming.default
  return {
    operationIds := ← m.defaulted "operation_id_overrides" d.operationIds textTable
    operationServices := ← m.defaulted "operation_services" d.operationServices textTable
    servicePackages := ← m.defaulted "service_packages" d.servicePackages textTable
    keywords := ← m.defaulted "service_keywords" d.keywords texts
    routingPrefixes := ← m.defaulted "routing_prefixes" d.routingPrefixes texts
    routingStrip := ← m.defaulted "routing_strip_prefix" d.routingStrip Tree.text? }

def readPreservedNames : Reader (List String) := fun t => do
  let m ← closedRecord? ["preserved_names"] t
  m.defaulted "preserved_names" defaultPreservedNames texts

def readRootSegment : Reader String := fun t => do
  let m ← closedRecord? ["root_segment"] t
  m.defaulted "root_segment" defaultRootSegment Tree.text?

def read : Reader Config := fun t => do
  let m ← closedRecord? ["version", "naming", "types", "builder"] t
  return {
    version := ← m.required "version" word32?
    naming := ← m.defaulted "naming" .default readNaming
    preservedNames := ← m.defaulted "types" defaultPreservedNames readPreservedNames
    rootSegment := ← m.defaulted "builder" defaultRootSegment readRootSegment }

/-! ## Validation -/

def overrideMethods : List String := ["DELETE", "GET", "PATCH", "POST", "PUT"]

/-- `METHOD:/path` -/
def isOverrideKey (key : String) : Bool :=
  match Text.splitOnce ':' key.toList with
  | some (method, path) =>
    overrideMethods.contains (String.ofList method) && path.head? == some '/'
  | none => false

def validate (c : Config) (origin : String) : Except ConfigError Config :=
  if c.version ≠ supportedVersion then throw (.unsupportedVersion origin c.version)
  else
    match c.naming.operationIds.keys.find? (! isOverrideKey ·) with
    | some key => throw (.invalidOverrideKey origin key)
    | none => return c

/-- Reads and validates a document; `origin` names it in errors. -/
def ofToml (text : String) (origin : String) : Except ConfigError Config :=
  match (Toml.read? text).bind read with
  | some c => c.validate origin
  | none => throw (.malformed origin)

/-! ## Fingerprint -/

/-- The `n` bytes of a number, the least significant first. -/
def littleEndian : Nat → Nat → List UInt8
  | 0, _ => []
  | n + 1, x => UInt8.ofNat (x % 256) :: littleEndian n (x / 256)

def utf8 (s : String) : List UInt8 :=
  s.toList.flatMap String.utf8EncodeChar

/-- A text after the number of its bytes, so that neighbours cannot run together. -/
def fieldBytes (s : String) : List UInt8 :=
  littleEndian 8 (utf8 s).length ++ utf8 s

def tableFields (name : String) (table : Dict String) : List String :=
  name :: table.entries.flatMap fun (k, v) => [k, v]

/-- All texts of a configuration in their order, each table and list after its name. -/
def fields (c : Config) : List String :=
  tableFields "operation_id_overrides" c.naming.operationIds ++
    tableFields "operation_services" c.naming.operationServices ++
    tableFields "service_packages" c.naming.servicePackages ++
    "service_keywords" :: c.naming.keywords ++
    "routing_prefixes" :: c.naming.routingPrefixes ++
    "preserved_names" :: c.preservedNames ++
    [c.naming.routingStrip, c.rootSegment]

def digestInput (c : Config) : List UInt8 :=
  littleEndian 4 c.version ++ c.fields.flatMap fieldBytes

def fingerprint (c : Config) : String :=
  String.ofList ((Digest.hex (Digest.sha256 c.digestInput)).toList.take 16)

end Config

/-- What the error says. The reason that a reader found is not part of it. -/
def ConfigError.message : ConfigError → String
  | unreadable path => "failed to read config " ++ path
  | malformed origin => "failed to parse config " ++ origin
  | unsupportedVersion origin found =>
    "unsupported config version " ++ toString found ++ " in " ++ origin ++
      " (expected " ++ toString Config.supportedVersion ++ ")"
  | invalidOverrideKey origin key =>
    "invalid operation id override key '" ++ key ++ "' in " ++ origin ++ ": expected METHOD:/path"

end ClientGen
