/-! # Methods -/
namespace ClientGen

inductive Method
  | delete
  | get
  | patch
  | post
  | put
  deriving DecidableEq, Repr

namespace Method

/-- The order of the operations of one path. -/
def all : List Method := [delete, get, patch, post, put]

def name : Method → String
  | delete => "DELETE"
  | get => "GET"
  | patch => "PATCH"
  | post => "POST"
  | put => "PUT"

def lowerName : Method → String
  | delete => "delete"
  | get => "get"
  | patch => "patch"
  | post => "post"
  | put => "put"

end Method
end ClientGen
