import ClientGen.Model.TypeRef
import ClientGen.Ownership

/-! # Operations

An operation with its final id, owner and function name, and the types of what it takes and returns.
-/
namespace ClientGen

structure PathParam where
  /-- As written in the template. -/
  name : String
  type : TypeRef
  description : Option String
  deriving DecidableEq, Repr

structure QueryParam where
  /-- As on the wire. -/
  name : String
  type : TypeRef
  required : Bool
  description : Option String
  deriving DecidableEq, Repr

/-- The body of a success response. -/
inductive ResponseType
  | empty
  | body (type : TypeRef)
  deriving DecidableEq, Repr

structure Operation where
  id : String
  method : Method
  path : String
  /-- One for each placeholder of the path, in its order. -/
  pathParams : List PathParam
  /-- In the order of their names, which differ. -/
  queryParams : List QueryParam
  body : Option TypeRef
  response : ResponseType
  owner : Owner
  /-- The function's name, unique in the package. -/
  function : String
  summary : Option String
  description : Option String
  deriving DecidableEq, Repr

namespace Operation

def package (op : Operation) : String := op.owner.package

def hasQuery (op : Operation) : Bool := !op.queryParams.isEmpty

def key (op : Operation) : String := op.method.name ++ ":" ++ op.path

end Operation

/-- An operation that no rule gave an owner. -/
structure Exclusion where
  method : Method
  path : String
  id : String
  deriving DecidableEq, Repr

def Exclusion.reason : String := "no service matched"

structure Api where
  /-- By path, then by method. -/
  operations : List Operation
  excluded : List Exclusion
  deriving DecidableEq, Repr

namespace Api

def operationsOf (api : Api) (package : String) : List Operation :=
  api.operations.filter (·.package == package)

/-- The packages in order, each once. -/
def packages (api : Api) : List String :=
  Dict.sortedNames (api.operations.map (·.package))

def find? (api : Api) (id : String) : Option Operation :=
  api.operations.find? (·.id == id)

end Api
end ClientGen
