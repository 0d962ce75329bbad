import ClientGen.Text.Cut

/-! # Lines of a doc comment

Free text as the lines of a comment: every kind of line break ends a line, controls that a comment
cannot carry become spaces, and blank lines at either edge go.
-/
namespace ClientGen.Text

/-- A carriage return, alone or before a line feed, is a line feed. -/
def unifyBreaks : List Char → List Char
  | [] => []
  | '\r' :: '\n' :: rest => '\n' :: unifyBreaks rest
  | c :: rest => (if c = '\r' then '\n' else c) :: unifyBreaks rest

def plainControl (c : Char) : Char :=
  if isControl c ∧ c ≠ '\n' ∧ c ≠ '\t' then ' ' else c

def dropEmptyEdges (ls : List (List Char)) : List (List Char) :=
  ((ls.dropWhile List.isEmpty).reverse.dropWhile List.isEmpty).reverse

def docLines (text : String) : List String :=
  let ls := (lines ((unifyBreaks text.toList).map plainControl)).map trimEnd
  (dropEmptyEdges ls).map String.ofList

end ClientGen.Text
