/-! # Types of fields and parameters

What a schema node says about a value: a scalar, anything, a named model, or a collection.
-/
namespace ClientGen

inductive Scalar
  | text
  | int32
  | int64
  | float32
  | float64
  | bool
  deriving DecidableEq, Repr

inductive TypeRef
  | text
  | timestamp
  | int32
  | int64
  | float32
  | float64
  | bool
  | any
  | named (name : String)
  | array (item : TypeRef)
  | map (value : TypeRef)
  deriving DecidableEq, Repr

namespace TypeRef

def isArray : TypeRef → Bool
  | array _ => true
  | _ => false

/-- The model that a type names without a collection in between. -/
def directName? : TypeRef → Option String
  | named n => some n
  | _ => none

/-- The models named anywhere in a type: at most one, as collections hold one type. -/
def names : TypeRef → List String
  | named n => [n]
  | array t => t.names
  | map t => t.names
  | _ => []

/-- The type as a path or query parameter, where all but numbers and booleans are text. -/
def scalar : TypeRef → Scalar
  | int32 => .int32
  | int64 => .int64
  | float32 => .float32
  | float64 => .float64
  | bool => .bool
  | _ => .text

end TypeRef

/-- Why a schema node has no type. -/
inductive TypeError
  | emptyReference (target : String)
  | invalidSchema
  deriving DecidableEq, Repr

def TypeError.message : TypeError → String
  | emptyReference target => "reference '" ++ target ++ "' has no type name"
  | invalidSchema => "invalid schema"

end ClientGen
