import ClientGen.Data.JsonText

/-! # Statements of a TOML text

A text is a sequence of lines that open a table, open an element of an array of tables, or assign a
value to a dotted key. Dates are not read: no setting holds one.
-/
namespace ClientGen.Toml
open ClientGen.JsonText (hexNumber? natOfDigits)

inductive Value
  | leaf (t : Tree)
  | array (items : List Value)
  | inlineTable (entries : List (List String × Value))

inductive Statement
  | table (path : List String)
  | element (path : List String)
  | assign (path : List String) (value : Value)

def isSpace (c : Char) : Bool :=
  c == ' ' || c == '\t'

def skipSpace (cs : List Char) : List Char :=
  cs.dropWhile isSpace

/-- What may stand in a comment or a literal text. -/
def isPlain (c : Char) : Bool :=
  c == '\t' || (32 ≤ c.toNat && c.toNat != 127)

/-- The end of a line, perhaps after a comment. -/
def lineEnd? (cs : List Char) : Option (List Char) :=
  let rest := match skipSpace cs with
    | '#' :: rest => rest.dropWhile isPlain
    | rest => rest
  match rest with
  | [] => some []
  | '\n' :: rest => some rest
  | '\r' :: '\n' :: rest => some rest
  | _ => none

/-- Blanks, line breaks and comments between the items of an array. -/
def skipLayout (inComment : Bool) : List Char → Option (List Char)
  | [] => some []
  | '\r' :: '\n' :: rest => skipLayout false rest
  | c :: rest =>
    if c = '\n' then skipLayout false rest
    else if inComment then (if isPlain c then skipLayout true rest else none)
    else if isSpace c then skipLayout false rest
    else if c = '#' then skipLayout true rest
    else some (c :: rest)

def scalarChar? (n : Nat) : Option Char :=
  if n < 0xd800 ∨ (0xdfff < n ∧ n < 0x110000) then some (Char.ofNat n) else none

/-- A character escape after its backslash. -/
def escape? : List Char → Option (Char × List Char)
  | 'b' :: rest => some ('\x08', rest)
  | 't' :: rest => some ('\t', rest)
  | 'n' :: rest => some ('\n', rest)
  | 'f' :: rest => some ('\x0c', rest)
  | 'r' :: rest => some ('\r', rest)
  | '"' :: rest => some ('"', rest)
  | '\\' :: rest => some ('\\', rest)
  | 'u' :: rest => if rest.length < 4 then none else do
    return (← scalarChar? (← hexNumber? (rest.take 4)), rest.drop 4)
  | 'U' :: rest => if rest.length < 8 then none else do
    return (← scalarChar? (← hexNumber? (rest.take 8)), rest.drop 8)
  | _ => none

/-- The rest of a text in double quotes. -/
def basicText : Nat → List Char → Option (List Char × List Char)
  | 0, _ => none
  | fuel + 1, cs =>
    match cs with
    | '"' :: rest => some ([], rest)
    | '\\' :: rest => do
      let (c, rest) ← escape? rest
      let (text, rest) ← basicText fuel rest
      return (c :: text, rest)
    | c :: rest =>
      if isPlain c then (basicText fuel rest).map fun (text, rest) => (c :: text, rest) else none
    | [] => none

/-- The rest of a text in single quotes. -/
def literalText (cs : List Char) : Option (List Char × List Char) :=
  let text := cs.takeWhile fun c => isPlain c && c != '\''
  match cs.drop text.length with
  | '\'' :: rest => some (text, rest)
  | _ => none

def dropLineBreak : List Char → List Char
  | '\n' :: rest => rest
  | '\r' :: '\n' :: rest => rest
  | rest => rest

/-- Blanks and line breaks after a backslash that ends a line. -/
def skipContinued : List Char → List Char
  | '\r' :: '\n' :: rest => skipContinued rest
  | c :: rest => if c = '\n' ∨ isSpace c then skipContinued rest else c :: rest
  | [] => []

def endsLine (cs : List Char) : Bool :=
  match skipSpace cs with
  | '\n' :: _ => true
  | '\r' :: '\n' :: _ => true
  | _ => false

/-- The rest of a text between triple quotes. Up to two quotes may stand right before the end. -/
def longText (quote : Char) : Nat → List Char → Option (List Char × List Char)
  | 0, _ => none
  | fuel + 1, cs =>
    let more (c : Char) (rest : List Char) :=
      (longText quote fuel rest).map fun (text, rest) => (c :: text, rest)
    match cs with
    | [] => none
    | '\r' :: '\n' :: rest => more '\n' rest
    | c :: rest =>
      if c = quote then
        let run := (cs.takeWhile (· == quote)).length
        if run < 3 then more c rest
        else if run ≤ 5 then some (List.replicate (run - 3) quote, cs.drop run)
        else none
      else if c = '\\' ∧ quote = '"' then
        if endsLine rest then longText quote fuel (skipContinued rest)
        else (escape? rest).bind fun (c, rest) => more c rest
      else if c = '\n' ∨ isPlain c then more c rest
      else none

def quoted? (cs : List Char) : Option (List Char × List Char) :=
  match cs with
  | '"' :: rest => basicText cs.length rest
  | '\'' :: rest => literalText rest
  | _ => none

def text? (cs : List Char) : Option (List Char × List Char) :=
  match cs with
  | '"' :: '"' :: '"' :: rest => longText '"' cs.length (dropLineBreak rest)
  | '\'' :: '\'' :: '\'' :: rest => longText '\'' cs.length (dropLineBreak rest)
  | _ => quoted? cs

def isBare (c : Char) : Bool :=
  c.isAlphanum || c == '_' || c == '-'

def simpleKey? (cs : List Char) : Option (String × List Char) :=
  match quoted? cs with
  | some (name, rest) => some (String.ofList name, rest)
  | none =>
    let name := cs.takeWhile isBare
    if name.isEmpty then none else some (String.ofList name, cs.drop name.length)

/-- A key and what follows the blanks after it. -/
def dottedKey : Nat → List Char → Option (List String × List Char)
  | 0, _ => none
  | fuel + 1, cs => do
    let (name, rest) ← simpleKey? (skipSpace cs)
    match skipSpace rest with
    | '.' :: rest => (dottedKey fuel rest).map fun (path, rest) => (name :: path, rest)
    | rest => return ([name], rest)

def key? (cs : List Char) : Option (List String × List Char) :=
  dottedKey cs.length cs

/-- Digits that may be grouped by single underscores. -/
def ungroup? (isDigit : Char → Bool) (cs : List Char) : Option (List Char) :=
  let groups := cs.splitOn '_'
  if groups.all fun g => !g.isEmpty && g.all isDigit then some groups.flatten else none

def radixValue (radix : Nat) (ds : List Char) : Nat :=
  ds.foldl (fun n c => radix * n + (JsonText.hexDigit? c).getD 0) 0

def isHexDigit (c : Char) : Bool :=
  (JsonText.hexDigit? c).isSome

def whole (i : Int) : Option Tree :=
  if Json.leastInt ≤ i ∧ i ≤ Json.greatestInt then some (.int i) else none

def decimalDigits? (cs : List Char) : Option (List Char) := do
  let ds ← ungroup? Char.isDigit cs
  if ds.length > 1 ∧ ds.head? = some '0' then none else return ds

def exponent? (cs : List Char) : Option Int := do
  let (negative, cs) := JsonText.signPart cs
  let n : Int := natOfDigits (← ungroup? Char.isDigit cs)
  return if negative then -n else n

def float? (negative : Bool) (cs : List Char) : Option Tree := do
  let isMark (c : Char) := c == 'e' || c == 'E'
  let mantissa := cs.takeWhile (! isMark ·)
  let exponent ← match cs.drop mantissa.length with
    | [] => some 0
    | _ :: rest => exponent? rest
  let ds ← decimalDigits? (mantissa.takeWhile (· != '.'))
  let fraction ← match mantissa.dropWhile (· != '.') with
    | [] => some []
    | _ :: rest => ungroup? Char.isDigit rest
  return .float (.ofDecimal negative (natOfDigits (ds ++ fraction)) (exponent - fraction.length))

def number? (cs : List Char) : Option Tree :=
  match cs with
  | '0' :: 'x' :: ds => (ungroup? isHexDigit ds).bind fun ds => whole (radixValue 16 ds)
  | '0' :: 'o' :: ds =>
    (ungroup? (fun c => '0' ≤ c && c ≤ '7') ds).bind fun ds => whole (radixValue 8 ds)
  | '0' :: 'b' :: ds =>
    (ungroup? (fun c => c == '0' || c == '1') ds).bind fun ds => whole (radixValue 2 ds)
  | _ =>
    let (negative, ds) := JsonText.signPart cs
    if ds = "inf".toList then some (.float (.infinity negative))
    else if ds = "nan".toList then some (.float .nan)
    else
      match decimalDigits? ds with
      | some ds => whole (if negative then -(natOfDigits ds : Int) else natOfDigits ds)
      | none => float? negative ds

def isAtomChar (c : Char) : Bool :=
  c.isAlphanum || c == '_' || c == '-' || c == '+' || c == '.' || c == ':'

def atom? (cs : List Char) : Option (Tree × List Char) := do
  let word := cs.takeWhile isAtomChar
  let t ← if word = "true".toList then some (.bool true)
    else if word = "false".toList then some (.bool false)
    else number? word
  return (t, cs.drop word.length)

mutual

def value : Nat → List Char → Option (Value × List Char)
  | 0, _ => none
  | fuel + 1, cs =>
    match cs with
    | '[' :: rest => (items fuel rest).map fun (vs, rest) => (.array vs, rest)
    | '\x7b' :: rest =>
      match skipSpace rest with
      | '\x7d' :: rest => some (.inlineTable [], rest)
      | rest => (entries fuel rest).map fun (es, rest) => (.inlineTable es, rest)
    | '"' :: _ => (text? cs).map fun (s, rest) => (.leaf (.text (String.ofList s)), rest)
    | '\'' :: _ => (text? cs).map fun (s, rest) => (.leaf (.text (String.ofList s)), rest)
    | _ => (atom? cs).map fun (t, rest) => (.leaf t, rest)

/-- The items of an array and its closing bracket. -/
def items : Nat → List Char → Option (List Value × List Char)
  | 0, _ => none
  | fuel + 1, cs => do
    match ← skipLayout false cs with
    | ']' :: rest => return ([], rest)
    | cs =>
      let (v, rest) ← value fuel cs
      match ← skipLayout false rest with
      | ',' :: rest => (items fuel rest).map fun (vs, rest) => (v :: vs, rest)
      | ']' :: rest => return ([v], rest)
      | _ => none

/-- The assignments of an inline table and its closing brace. -/
def entries : Nat → List Char → Option (List (List String × Value) × List Char)
  | 0, _ => none
  | fuel + 1, cs => do
    let (path, rest) ← key? cs
    match rest with
    | '=' :: rest =>
      let (v, rest) ← value fuel (skipSpace rest)
      match skipSpace rest with
      | ',' :: rest => (entries fuel rest).map fun (es, rest) => ((path, v) :: es, rest)
      | '\x7d' :: rest => return ([(path, v)], rest)
      | _ => none
    | _ => none

end

/-- The statement on a line that is neither blank nor a comment. -/
def statement? (cs : List Char) : Option (Statement × List Char) :=
  match cs with
  | '[' :: '[' :: rest => do
    match ← key? rest with
    | (path, ']' :: ']' :: rest) => return (.element path, rest)
    | _ => none
  | '[' :: rest => do
    match ← key? rest with
    | (path, ']' :: rest) => return (.table path, rest)
    | _ => none
  | _ => do
    match ← key? cs with
    | (path, '=' :: rest) => do
      let (v, rest) ← value (2 * cs.length + 2) (skipSpace rest)
      return (.assign path v, rest)
    | _ => none

def statementsFrom : Nat → List Char → Option (List Statement)
  | 0, _ => none
  | fuel + 1, cs =>
    match skipSpace cs with
    | [] => some []
    | c :: rest =>
      if c = '#' ∨ c = '\n' ∨ c = '\r' then (lineEnd? (c :: rest)).bind (statementsFrom fuel)
      else do
        let (s, rest) ← statement? (c :: rest)
        let later ← statementsFrom fuel (← lineEnd? rest)
        return s :: later

/-- A byte order mark before the text is skipped. -/
def statements? (text : String) : Option (List Statement) :=
  let cs := match text.toList with
    | '\ufeff' :: rest => rest
    | cs => cs
  statementsFrom (cs.length + 1) cs

end ClientGen.Toml
