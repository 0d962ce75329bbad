import ClientGen.Data.Yaml.Cursor

/-! # Scalars of a YAML text

Plain, quoted and block scalars from their first character on, and what an untyped reader makes of a
plain one. Each reader returns the text and the place after it.
-/
namespace ClientGen.Yaml

/-! ## Plain scalars -/

def isFlowPunctuation (c : Char) : Bool :=
  c == ',' || c == '[' || c == ']' || c == '\x7b' || c == '\x7d'

/-- Characters up to a blank or to what ends the scalar. In a flow collection a colon right before
punctuation is an error. -/
def plainRun (inFlow : Bool) : List Char → Option (List Char)
  | [] => some []
  | c :: rest =>
    if endsWord (c :: rest) then some []
    else if inFlow ∧ c = ':' ∧ rest.head?.any (fun d => isFlowPunctuation d || d == '?') then none
    else if (c = ':' ∧ endsWord rest) ∨ (inFlow ∧ isFlowPunctuation c) then some []
    else (plainRun inFlow rest).map (c :: ·)

/-- Also tells whether a line break was the last thing read. `before` is the gap not yet joined. -/
def plainFrom (inFlow : Bool) (indent : Nat) :
    Nat → List Char → Gap → Cursor → Option (List Char × Bool × Cursor)
  | 0, _, _, _ => none
  | fuel + 1, text, before, c =>
    if c.atDocumentMarker || c.rest.head? == some '#' then some (text, before.hasBreak, c)
    else do
      let run ← plainRun inFlow c.rest
      let c := c.skip run.length
      let (text, before) :=
        if run.isEmpty then (text, before) else (text ++ before.text ++ run, .blanks [])
      if c.atBlank || c.atBreak then
        let (after, c) ← c.gap indent before
        if !inFlow && c.column < indent then return (text, after.hasBreak, c)
        else plainFrom inFlow indent fuel text after c
      else return (text, before.hasBreak, c)

def Cursor.plain (c : Cursor) (inFlow : Bool) (indent : Nat) : Option (List Char × Bool × Cursor) :=
  plainFrom inFlow indent c.bound [] (.blanks []) c

/-! ## Quoted scalars -/

/-- Text on one line up to a blank or the closing quote, and the gap that an escaped line break
starts. -/
def quotedRun (double : Bool) : Nat → List Char → Cursor → Option (List Char × Gap × Cursor)
  | 0, _, _ => none
  | fuel + 1, text, c =>
    if endsWord c.rest then some (text, .blanks [], c)
    else
      match double, c.rest with
      | false, '\'' :: '\'' :: _ => quotedRun double fuel (text ++ ['\'']) (c.skip 2)
      | false, '\'' :: _ => some (text, .blanks [], c)
      | true, '"' :: _ => some (text, .blanks [], c)
      | true, '\\' :: b :: _ =>
        if isBreak b then some (text, .breaks [] [], (c.skip 1).skipBreak)
        else (escape? (c.skip 1)).bind fun (d, c) => quotedRun double fuel (text ++ [d]) c
      | _, d :: _ => quotedRun double fuel (text ++ [d]) (c.skip 1)
      | _, [] => none

def quotedFrom (double : Bool) : Nat → List Char → Cursor → Option (List Char × Cursor)
  | 0, _, _ => none
  | fuel + 1, text, c =>
    if c.atDocumentMarker || c.atEnd then none
    else do
      let (text, before, c) ← quotedRun double c.bound text c
      let closing := if double then '"' else '\''
      if c.rest.head? = some closing ∧ !before.hasBreak then return (text, c.skip 1)
      else
        let (after, c) ← c.gap 0 before
        quotedFrom double fuel (text ++ after.text) c

def Cursor.quoted (c : Cursor) (double : Bool) : Option (List Char × Cursor) :=
  quotedFrom double c.bound [] (c.skip 1)

/-! ## Block scalars -/

inductive Chomping
  | strip
  | clip
  | keep
  deriving DecidableEq

structure BlockHeader where
  chomping : Chomping
  /-- The indentation of the text relative to its parent, when given. -/
  increment : Option Nat

def chomping? : Char → Option Chomping
  | '+' => some .keep
  | '-' => some .strip
  | _ => none

def increment? (c : Char) : Option Nat :=
  if '1' ≤ c ∧ c ≤ '9' then some (c.toNat - '0'.toNat) else none

/-- The indicators in either order; a zero is caught by what must follow. -/
def blockHeader (c : Cursor) : BlockHeader × Cursor :=
  match c.rest with
  | a :: rest =>
    match chomping? a, increment? a with
    | some chomping, _ =>
      match rest.head?.bind increment? with
      | some n => (⟨chomping, some n⟩, c.skip 2)
      | none => (⟨chomping, none⟩, c.skip 1)
    | none, some n =>
      match rest.head?.bind chomping? with
      | some chomping => (⟨chomping, some n⟩, c.skip 2)
      | none => (⟨.clip, some n⟩, c.skip 1)
    | none, none => (⟨.clip, none⟩, c)
  | [] => (⟨.clip, none⟩, c)

/-- Empty lines before the next line of text, their line breaks, and the widest indentation seen.
With no indentation known yet all spaces are skipped. -/
def blankLines (indent : Option Nat) :
    Nat → List Char → Nat → Cursor → Option (List Char × Nat × Cursor)
  | 0, _, _, _ => none
  | fuel + 1, breaks, widest, c =>
    let spaces := (c.rest.takeWhile (· == ' ')).length
    let c := c.skip ((indent.map fun n => min spaces (n - c.column)).getD spaces)
    let widest := max widest c.column
    if indent.all (c.column < ·) ∧ c.rest.head? = some '\t' then none
    else if c.atBreak then blankLines indent fuel (breaks ++ c.breakText) widest c.skipBreak
    else some (breaks, widest, c)

def Cursor.blankLines (c : Cursor) (indent : Option Nat) : Option (List Char × Nat × Cursor) :=
  Yaml.blankLines indent c.bound [] 0 c

/-- Text so far with the line break and empty lines after it, and whether its last line began with a
blank: such lines do not fold. -/
structure BlockState where
  text : List Char
  lineBreak : List Char
  emptyLines : List Char
  blankStart : Bool

def blockLines (literal : Bool) (indent : Nat) :
    Nat → BlockState → Cursor → Option (BlockState × Cursor)
  | 0, _, _ => none
  | fuel + 1, s, c =>
    if c.column ≠ indent ∨ c.atEnd then some (s, c)
    else do
      let blankStart := c.atBlank
      let folds := !literal && s.lineBreak == ['\n'] && !s.blankStart && !blankStart
      let joint := if folds then (if s.emptyLines.isEmpty then [' '] else []) else s.lineBreak
      let line := c.rest.takeWhile (! isBreak ·)
      let c := c.skip line.length
      let lineBreak := c.breakText
      let (emptyLines, _, c) ← c.skipBreak.blankLines (some indent)
      blockLines literal indent fuel
        ⟨s.text ++ joint ++ s.emptyLines ++ line, lineBreak, emptyLines, blankStart⟩ c

/-- `parent` is the indentation of the collection around the scalar, `none` at the top. -/
def Cursor.block (c : Cursor) (literal : Bool) (parent : Option Nat) :
    Option (List Char × Cursor) := do
  let (header, c) := blockHeader (c.skip 1)
  let c := (c.skipWhile isBlank).skipComment
  if !(c.atBreak || c.atEnd) then none
  else
    let c := c.skipBreak
    let given := header.increment.map (parent.getD 0 + ·)
    let (emptyLines, widest, c) ← c.blankLines given
    let indent := given.getD (max widest (max 1 ((parent.map (· + 1)).getD 0)))
    let (s, c) ← blockLines literal indent c.bound ⟨[], [], emptyLines, false⟩ c
    let tail := match header.chomping with
      | .strip => []
      | .clip => s.lineBreak
      | .keep => s.lineBreak ++ s.emptyLines
    return (s.text ++ tail, c)

/-! ## Meaning of plain scalars -/

/-- Zeros before further digits make a text. -/
def isPaddedNumber (cs : List Char) : Bool :=
  let ds := match cs with
    | '-' :: rest => rest
    | '+' :: rest => rest
    | rest => rest
  match ds with
  | '0' :: rest => !rest.isEmpty && rest.all Char.isDigit
  | _ => false

def radixNumber? (radix : Nat) (ds : List Char) : Option Nat :=
  let value (c : Char) := (JsonText.hexDigit? c).bind fun n => if n < radix then some n else none
  if ds.isEmpty then none else ds.foldlM (fun n c => (value c).map (radix * n + ·)) 0

/-- Decimal, hexadecimal, octal and binary whole numbers. -/
def magnitude? (cs : List Char) : Option Nat :=
  match cs with
  | '0' :: 'x' :: ds => radixNumber? 16 ds
  | '0' :: 'o' :: ds => radixNumber? 8 ds
  | '0' :: 'b' :: ds => radixNumber? 2 ds
  | _ => if isPaddedNumber cs then none else radixNumber? 10 cs

def whole? (cs : List Char) : Option Int :=
  match cs with
  | '-' :: ds => (magnitude? ds).map fun n => -(n : Int)
  | '+' :: ds => (magnitude? ds).map (·)
  | _ => (magnitude? cs).map (·)

/-- Digits with a point among them or at either end, and perhaps an exponent. -/
def decimal? (negative : Bool) (cs : List Char) : Option Binary64 := do
  let (whole, cs) := JsonText.digitRun cs
  let (fraction, cs) := match cs with
    | '.' :: rest => JsonText.digitRun rest
    | rest => ([], rest)
  let (exponent, cs) ← JsonText.exponentPart cs
  if (whole.isEmpty && fraction.isEmpty) || !cs.isEmpty then none
  else
    return .ofDecimal negative (JsonText.natOfDigits (whole ++ fraction))
      (exponent.getD 0 - fraction.length)

def float? (cs : List Char) : Option Binary64 :=
  if [".inf", ".Inf", ".INF", "+.inf", "+.Inf", "+.INF"].contains (String.ofList cs) then
    some (.infinity false)
  else if ["-.inf", "-.Inf", "-.INF"].contains (String.ofList cs) then some (.infinity true)
  else if [".nan", ".NaN", ".NAN"].contains (String.ofList cs) then some .nan
  else
    let x := match cs with
      | '-' :: ds => decimal? true ds
      | '+' :: ds => decimal? false ds
      | _ => decimal? false cs
    x.filter (·.isFinite)

def isNullWord (s : String) : Bool :=
  ["", "~", "null", "Null", "NULL"].contains s

def bool? (s : String) : Option Bool :=
  if ["true", "True", "TRUE"].contains s then some true
  else if ["false", "False", "FALSE"].contains s then some false
  else none

def leastWide : Int := -0x80000000000000000000000000000000

def greatestWide : Int := 0xffffffffffffffffffffffffffffffff

/-- A whole number of up to 128 bits; beyond 64 it has no value. -/
def wholeTree? (cs : List Char) : Option Tree := do
  let i ← whole? cs
  if Json.isWhole i then return .int i
  else if leastWide ≤ i ∧ i ≤ greatestWide then return .broken
  else none

def meaning (s : String) : Tree :=
  if isNullWord s then .null
  else
    match bool? s, wholeTree? s.toList with
    | some b, _ => .bool b
    | none, some t => t
    | none, none =>
      match (if isPaddedNumber s.toList then none else float? s.toList) with
      | some x => .float x
      | none => .text s

end ClientGen.Yaml
