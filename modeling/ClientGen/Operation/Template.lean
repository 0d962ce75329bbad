/-! # Path templates

A path is text with placeholders such as `{id}` in it. A placeholder runs from an opening brace to
the next closing one; an opening brace that is never closed is text.
-/
namespace ClientGen.Template

/-- Each placeholder with the text before it, and the text after the last. -/
abbrev Cuts := List (List Char × List Char) × List Char

/-- `name` holds what was read of a placeholder since its opening brace. -/
def scan (before : List Char) (name : Option (List Char)) : List Char → Cuts
  | [] => ([], before ++ (name.map ('{' :: ·)).getD [])
  | c :: rest =>
    match name with
    | none => if c = '{' then scan before (some []) rest else scan (before ++ [c]) none rest
    | some n =>
      if c = '}' then
        let (cuts, tail) := scan [] none rest
        ((before, n) :: cuts, tail)
      else scan before (some (n ++ [c])) rest

def cuts (path : List Char) : Cuts :=
  scan [] none path

/-- Names of the placeholders in order, repeats kept. -/
def placeholders (path : String) : List String :=
  (cuts path.toList).1.map fun (_, name) => String.ofList name

/-- The path with an empty pair of braces for each placeholder. -/
def holes (path : String) : String :=
  let (filled, tail) := cuts path.toList
  String.ofList (filled.flatMap (fun (before, _) => before ++ ['{', '}']) ++ tail)

/-- The non-empty pieces between slashes. -/
def segments (path : String) : List String :=
  ((path.toList.splitOn '/').filter (! ·.isEmpty)).map String.ofList

/-- The name of a segment that is one placeholder and nothing else. -/
def wholePlaceholder? (segment : String) : Option String :=
  match segment.toList with
  | '{' :: rest =>
    match rest.getLast?, rest.dropLast with
    | some '}', name =>
      if name.contains '{' || name.contains '}' then none else some (String.ofList name)
    | _, _ => none
  | _ => none

end ClientGen.Template
