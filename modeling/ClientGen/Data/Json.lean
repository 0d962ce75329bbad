import ClientGen.Data.Dict
import ClientGen.Number.Binary64

/-! # Plain JSON values

Values free of how they were written: a name occurs once among the members of an object, and members
stand in the order of their names.
-/
namespace ClientGen

inductive Json
  | null
  | bool (b : Bool)
  | int (i : Int)
  | float (x : Binary64)
  | text (s : String)
  | list (items : List Json)
  | object (members : List (String × Json))
  deriving Repr

namespace Json

def leastInt : Int := -0x8000000000000000
def greatestInt : Int := 0x7fffffffffffffff
def greatestNat : Int := 0xffffffffffffffff

/-- Whole numbers of 64 bits, signed or not. -/
def isWhole (i : Int) : Bool :=
  leastInt ≤ i && i ≤ greatestNat

def asText? : Json → Option String
  | text s => some s
  | _ => none

def asBool? : Json → Option Bool
  | bool b => some b
  | _ => none

def asInt? : Json → Option Int
  | int i => if leastInt ≤ i ∧ i ≤ greatestInt then some i else none
  | _ => none

/-- Any number, whole ones rounded to the nearest float. -/
def asFloat? : Json → Option Binary64
  | int i => some (Binary64.ofInt i)
  | float x => some x
  | _ => none

end Json
end ClientGen
