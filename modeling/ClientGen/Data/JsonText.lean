import ClientGen.Data.Tree

/-! # JSON text

The reader accepts strict JSON with blanks around it. Each of its parts returns the characters that
it leaves. A number out of range, half of a surrogate pair and nesting beyond `maxDepth` are
well-formed but broken.
-/
namespace ClientGen.JsonText

def maxDepth : Nat := 127

def isSpace (c : Char) : Bool :=
  c == ' ' || c == '\n' || c == '\t' || c == '\r'

def skipSpace (cs : List Char) : List Char :=
  cs.dropWhile isSpace

def hexDigit? (c : Char) : Option Nat :=
  if c.isDigit then some (c.toNat - '0'.toNat)
  else if 'a' ≤ c ∧ c ≤ 'f' then some (c.toNat - 'a'.toNat + 10)
  else if 'A' ≤ c ∧ c ≤ 'F' then some (c.toNat - 'A'.toNat + 10)
  else none

def hexNumber? (cs : List Char) : Option Nat :=
  cs.foldlM (fun n c => (hexDigit? c).map (16 * n + ·)) 0

/-- A character, or one half of a surrogate pair. -/
inductive Unit16
  | char (c : Char)
  | high (n : Nat)
  | low (n : Nat)

def Unit16.ofCode (n : Nat) : Unit16 :=
  if 0xd800 ≤ n ∧ n < 0xdc00 then .high n
  else if 0xdc00 ≤ n ∧ n < 0xe000 then .low n
  else .char (Char.ofNat n)

def joinUnits : List Unit16 → Option (List Char)
  | [] => some []
  | .char c :: us => (joinUnits us).map (c :: ·)
  | .high a :: .low b :: us =>
    (joinUnits us).map (Char.ofNat (0x10000 + (a - 0xd800) * 0x400 + (b - 0xdc00)) :: ·)
  | _ => none

def simpleEscape? : Char → Option Char
  | '"' => some '"'
  | '\\' => some '\\'
  | '/' => some '/'
  | 'b' => some '\x08'
  | 'f' => some '\x0c'
  | 'n' => some '\n'
  | 'r' => some '\r'
  | 't' => some '\t'
  | _ => none

/-- The rest of a text after its opening quote. -/
def textUnits : List Char → Option (List Unit16 × List Char)
  | [] => none
  | '"' :: rest => some ([], rest)
  | '\\' :: 'u' :: a :: b :: c :: d :: rest => do
    let n ← hexNumber? [a, b, c, d]
    let (us, rest) ← textUnits rest
    return (.ofCode n :: us, rest)
  | '\\' :: c :: rest => do
    let c ← simpleEscape? c
    let (us, rest) ← textUnits rest
    return (.char c :: us, rest)
  | c :: rest =>
    if c.toNat < 32 then none
    else (textUnits rest).map fun (us, rest) => (.char c :: us, rest)

def digitRun (cs : List Char) : List Char × List Char :=
  (cs.takeWhile Char.isDigit, cs.dropWhile Char.isDigit)

def natOfDigits (ds : List Char) : Nat :=
  ds.foldl (fun n c => 10 * n + (c.toNat - '0'.toNat)) 0

/-- Digits after a point, when there is one. -/
def fractionPart : List Char → Option (List Char × List Char)
  | '.' :: rest =>
    let (ds, rest) := digitRun rest
    if ds.isEmpty then none else some (ds, rest)
  | rest => some ([], rest)

def signPart : List Char → Bool × List Char
  | '-' :: rest => (true, rest)
  | '+' :: rest => (false, rest)
  | rest => (false, rest)

/-- A power of ten, when one is written. -/
def exponentPart : List Char → Option (Option Int × List Char)
  | [] => some (none, [])
  | c :: rest =>
    if c = 'e' ∨ c = 'E' then
      let (negative, rest) := signPart rest
      let (ds, rest) := digitRun rest
      let n : Int := natOfDigits ds
      if ds.isEmpty then none else some (some (if negative then -n else n), rest)
    else some (none, c :: rest)

def finiteOrBroken (x : Binary64) : Tree :=
  if x.isFinite then .float x else .broken

def numberValue (negative : Bool) (whole fraction : List Char) (exponent : Option Int) : Tree :=
  let n := natOfDigits whole
  let i : Int := if negative then -n else n
  if fraction.isEmpty && exponent.isNone && Json.isWhole i && !(negative && n == 0) then .int i
  else
    finiteOrBroken <| .ofDecimal negative (natOfDigits (whole ++ fraction))
      (exponent.getD 0 - fraction.length)

def number? (cs : List Char) : Option (Tree × List Char) := do
  let (negative, cs) := match cs with
    | '-' :: rest => (true, rest)
    | _ => (false, cs)
  let (whole, cs) := digitRun cs
  if whole.isEmpty || (whole.length > 1 && whole.head? == some '0') then none
  else
    let (fraction, cs) ← fractionPart cs
    let (exponent, cs) ← exponentPart cs
    return (numberValue negative whole fraction exponent, cs)

def textTree (us : List Unit16) : Tree :=
  match joinUnits us with
  | some cs => .text (String.ofList cs)
  | none => .broken

/-- An object with a name that is no text has no value. -/
def objectTree (members : List (Option String × Tree)) : Tree :=
  match members.mapM fun (k, t) => k.map fun k => (Key.text k, t) with
  | some ms => .object ms
  | none => .broken

mutual

def value : Nat → List Char → Option (Tree × List Char)
  | 0, _ => none
  | fuel + 1, cs =>
    match skipSpace cs with
    | '\x7b' :: rest =>
      match skipSpace rest with
      | '\x7d' :: rest => some (.object [], rest)
      | rest => (members fuel rest).map fun (ms, rest) => (objectTree ms, rest)
    | '[' :: rest =>
      match skipSpace rest with
      | ']' :: rest => some (.list [], rest)
      | rest => (items fuel rest).map fun (ts, rest) => (.list ts, rest)
    | '"' :: rest => (textUnits rest).map fun (us, rest) => (textTree us, rest)
    | 'n' :: 'u' :: 'l' :: 'l' :: rest => some (.null, rest)
    | 't' :: 'r' :: 'u' :: 'e' :: rest => some (.bool true, rest)
    | 'f' :: 'a' :: 'l' :: 's' :: 'e' :: rest => some (.bool false, rest)
    | cs => number? cs

def items : Nat → List Char → Option (List Tree × List Char)
  | 0, _ => none
  | fuel + 1, cs => do
    let (t, rest) ← value fuel cs
    match skipSpace rest with
    | ',' :: rest => (items fuel rest).map fun (ts, rest) => (t :: ts, rest)
    | ']' :: rest => return ([t], rest)
    | _ => none

def members : Nat → List Char → Option (List (Option String × Tree) × List Char)
  | 0, _ => none
  | fuel + 1, cs =>
    match skipSpace cs with
    | '"' :: rest => do
      let (us, rest) ← textUnits rest
      let name := (joinUnits us).map String.ofList
      match skipSpace rest with
      | ':' :: rest => do
        let (t, rest) ← value fuel rest
        match skipSpace rest with
        | ',' :: rest => (members fuel rest).map fun (ms, rest) => ((name, t) :: ms, rest)
        | '\x7d' :: rest => return ([(name, t)], rest)
        | _ => none
      | _ => none
    | _ => none

end

/-- Every step reads a character or descends once before it does, which bounds the steps. -/
def read? (text : String) : Option Tree := do
  let cs := text.toList
  let (t, rest) ← value (2 * cs.length + 2) cs
  if (skipSpace rest).isEmpty then some (t.limitDepth maxDepth) else none

end ClientGen.JsonText
