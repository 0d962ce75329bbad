import ClientGen.Ident
import ClientGen.Operation
import ClientGen.Sdk.TypeUse

/-! # Signatures

What the function of an operation takes and returns, decided once for the function itself and for
the navigation that calls it.
-/
namespace ClientGen.Sdk
open Code (Ty)

/-- Names that the functions of operations use for something else. -/
def reservedArguments : List String := ["client", "options", "path"]

structure PathArgument where
  name : String
  scalar : Scalar
  deriving DecidableEq, Repr

structure BodyArgument where
  name : String
  /-- What the argument refers to. -/
  type : Ty
  deriving Repr

structure Signature where
  /-- In the order of the placeholders. -/
  path : List PathArgument
  body : Option BodyArgument
  result : Ty
  deriving Repr

namespace Signature

def argumentNames (op : Operation) : List String :=
  Ident.reserveAll Ident.reserve reservedArguments
    (op.pathParams.map fun p => Ident.bindingName p.name)

def bodyName (op : Operation) : String :=
  (Ident.reserve "request_body" (argumentNames op ++ reservedArguments)).1

def payload (scope : ModelScope) (paths : ModulePaths) : ResponseType → Ty
  | .empty => .path (paths.runtime "Nothing")
  | .body t => scope.type t

def ofOperation (scope : ModelScope) (paths : ModulePaths) (op : Operation) : Signature where
  path := (argumentNames op).zipWith (fun name p => ⟨name, p.type.scalar⟩) op.pathParams
  body := op.body.map fun t => ⟨bodyName op, scope.type t⟩
  result := .generic (paths.runtime "Result")
    [.generic (paths.runtime "Response") [payload scope paths op.response]]

end Signature

def PathArgument.param (a : PathArgument) : Code.Param :=
  ⟨a.name, argumentType a.scalar⟩

def BodyArgument.param (a : BodyArgument) : Code.Param :=
  ⟨a.name, .ref none a.type⟩

/-- The module of a package among the services. -/
def packageModule (package : String) : String :=
  Ident.bindingName package

end ClientGen.Sdk
