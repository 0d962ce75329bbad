import ClientGen.Text.Words

/-! # Identifiers

How a name of the document becomes an identifier of the generated code, and how a scope hands out
names that nobody else in it has. The same name always gives the same identifier, whoever asks.
-/
namespace ClientGen.Ident
open ClientGen.Text

def keywords : List String :=
  ["as", "async", "await", "break", "const", "continue", "crate", "dyn", "else", "enum",
    "extern", "false", "fn", "for", "gen", "if", "impl", "in", "let", "loop", "match", "mod",
    "move", "mut", "pub", "ref", "return", "self", "Self", "static", "struct", "super",
    "trait", "true", "type", "unsafe", "use", "where", "while", "abstract", "become", "box",
    "do", "final", "macro", "override", "priv", "try", "typeof", "unsized", "virtual",
    "yield"]

/-- Words that the raw form `r#` does not turn into identifiers. -/
def neverRaw : List String :=
  ["self", "Self", "super", "crate", "_"]

def isKeyword (name : String) : Bool :=
  keywords.contains name

def escapeKeyword (name : String) : String :=
  if neverRaw.contains name then name ++ "_"
  else if isKeyword name then "r#" ++ name
  else name

/-- An identifier without the raw form's `r#`. -/
def unraw (name : String) : String :=
  match "r#".toList.isPrefixOf? name.toList with
  | some rest => String.ofList rest
  | none => name

def capitalize : List Char → List Char
  | [] => []
  | c :: rest => toUpper c ++ rest

def capitalizeFirst (name : String) : String :=
  String.ofList (capitalize name.toList)

def lowerAll (cs : List Char) : List Char :=
  cs.map Char.toLower

def startsWithDigit : List Char → Bool
  | [] => false
  | c :: _ => c.isDigit

/-- Whatever an identifier cannot hold becomes an underscore. -/
def underscored (cs : List Char) : List Char :=
  cs.map fun c => if c.isAlphanum then c else '_'

def isJoiner (c : Char) : Bool :=
  c == '_' || c == '-' || c == ' '

/-- Symbols that tell type names apart are spelled out. -/
def spell (c : Char) : List Char :=
  if c = '.' then "_DOT_".toList
  else if c = '+' then "_PLUS_".toList
  else if c = '*' then "_STAR_".toList
  else if c = '/' then "_SLASH_".toList
  else if c.isAlphanum || isJoiner c then [c]
  else ['_']

def legalStart (reserved : List Char) : List Char → List Char
  | [] => "Empty".toList
  | c :: rest =>
    if c.isDigit then 'N' :: c :: rest
    else if c :: rest = "Self".toList then reserved
    else c :: rest

/-- Words are capitalized and joined; a name without joiners keeps its inner case. -/
def typeName (name : String) : String :=
  let spelled := name.toList.flatMap spell
  let joined :=
    if spelled.any isJoiner then (pieces isJoiner spelled).flatMap (capitalize ∘ lowerAll)
    else capitalize spelled
  String.ofList (legalStart "SelfType".toList joined)

/-- Words in capitals only are lowered before they are capitalized. -/
def variantWord (word : List Char) : List Char :=
  if word.any Char.isLower then capitalize word else capitalize (lowerAll word)

def variantName (name : String) : String :=
  let cleaned := underscored name.toList
  let joined :=
    if cleaned.contains '_' then (pieces (· == '_') cleaned).flatMap variantWord
    else capitalize cleaned
  String.ofList (legalStart "SelfValue".toList joined)

/-- Lower-case words joined by underscores; keywords are left as they are. -/
def snake (name : String) : String :=
  match snakeCase (underscored name.toList) with
  | [] => "value"
  | cs => if startsWithDigit cs then "n_" ++ String.ofList cs else String.ofList cs

/-- The name of a field, function, argument or module. -/
def bindingName (name : String) : String :=
  escapeKeyword (snake name)

def lowerCamel (words : List String) : String :=
  String.ofList (lowerCamelCase ("_".intercalate words).toList)

/-- The first of `candidate 2`, `candidate 3`, … outside `used`. Some candidate among the first
`used.length + 1` is free when all of them differ. -/
def firstFree (candidate : Nat → String) (used : List String) : String :=
  let trials := (List.range (used.length + 1)).map fun i => candidate (i + 2)
  (trials.find? (! used.contains ·)).getD (candidate (used.length + 3))

/-- Hands out `base`, or else its bare form with the least free suffix `_2`, `_3`, … -/
def reserve (base : String) (used : List String) : String × List String :=
  let name :=
    if used.contains base then firstFree (fun n => unraw base ++ "_" ++ toString n) used else base
  (name, name :: used)

/-- Hands out `base`, or else `base` with the least free suffix `2`, `3`, … -/
def reserveType (base : String) (used : List String) : String × List String :=
  let name := if used.contains base then firstFree (fun n => base ++ toString n) used else base
  (name, name :: used)

/-- Reserves the bases in turn, each among the names given so far. -/
def reserveAll (give : String → List String → String × List String) (used : List String) :
    List String → List String
  | [] => []
  | base :: rest =>
    let (name, used) := give base used
    name :: reserveAll give used rest

end ClientGen.Ident
