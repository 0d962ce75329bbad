import ClientGen.Data.Yaml.Scalar

/-! # Tokens of a YAML text

Indentation becomes tokens that open and close block collections. A simple key is known only by the
colon after it: each place where one may start is remembered, and the tokens that make it a key are
put there when the colon comes on the same line.
-/
namespace ClientGen.Yaml

inductive Token
  | streamEnd
  | version (major minor : Nat)
  | tagDirective (handle expansion : String)
  | documentStart
  | documentEnd
  | blockSequence
  | blockMapping
  | blockEnd
  | flowSequence
  | flowSequenceEnd
  | flowMapping
  | flowMappingEnd
  | entry
  | flowEntry
  | key
  | value
  | alias (name : String)
  | anchor (name : String)
  | tag (handle suffix : String)
  /-- `plain` scalars may mean something other than their text. -/
  | scalar (text : String) (plain : Bool)
  deriving DecidableEq, Repr

/-- A place where a simple key may start: the number of tokens before it, and whether the
indentation allows nothing else there. -/
structure KeyStart where
  tokens : Nat
  required : Bool
  offset : Nat
  line : Nat
  column : Nat

structure Scanner where
  cursor : Cursor
  tokens : Array Token
  /-- Indentations of the open block collections, innermost first. -/
  indents : List Nat
  keyAllowed : Bool
  /-- Possible simple keys, one for the block context and one for each open flow collection. -/
  keys : List (Option KeyStart)

namespace Scanner

def inFlow (s : Scanner) : Bool :=
  s.keys.length > 1

def push (s : Scanner) (t : Token) : Scanner :=
  { s with tokens := s.tokens.push t }

def atIndent (s : Scanner) (column : Nat) : Bool :=
  s.indents.head? = some column

/-- Closes the block collections indented more than `column`. -/
def closeBlocks (column : Nat) : List Nat → Array Token → List Nat × Array Token
  | [], tokens => ([], tokens)
  | i :: rest, tokens =>
    if i > column then closeBlocks column rest (tokens.push .blockEnd) else (i :: rest, tokens)

def unroll (s : Scanner) (column : Nat) : Scanner :=
  if s.inFlow then s
  else
    let (indents, tokens) := closeBlocks column s.indents s.tokens
    { s with indents, tokens }

def unrollAll (s : Scanner) : Scanner :=
  if s.inFlow then s
  else { s with indents := [], tokens := s.indents.foldl (fun ts _ => ts.push .blockEnd) s.tokens }

/-- Opens a block collection at `column` unless one of that indentation is open. -/
def roll (s : Scanner) (column : Nat) (place : Nat) (opening : Token) : Scanner :=
  if s.inFlow || s.indents.head?.any (column ≤ ·) then s
  else
    let tokens := s.tokens.insertIdxIfInBounds place opening
    { s with indents := column :: s.indents, tokens }

def forgetKey (s : Scanner) : Option Scanner :=
  match s.keys with
  | some k :: rest => if k.required then none else some { s with keys := none :: rest }
  | _ => some s

/-- Remembers that a simple key may start here. -/
def noteKey (s : Scanner) : Option Scanner :=
  if !s.keyAllowed then some s
  else do
    let c := s.cursor
    let s ← s.forgetKey
    let required := !s.inFlow && s.atIndent c.column
    let start : KeyStart := ⟨s.tokens.size, required, c.offset, c.line, c.column⟩
    return { s with keys := some start :: s.keys.drop 1 }

def isStale (c : Cursor) (k : KeyStart) : Bool :=
  k.line < c.line || k.offset + 1024 < c.offset

/-- Simple keys end on their line and within 1024 characters. -/
def dropStale (s : Scanner) : Option Scanner := do
  let keys ← s.keys.mapM fun k =>
    match k with
    | some k =>
      if isStale s.cursor k then (if k.required then none else some none) else some (some k)
    | none => some none
  return { s with keys }

/-- Past blanks, comments and line breaks to the next token. -/
def skipLayout : Nat → Scanner → Scanner
  | 0, s => s
  | fuel + 1, s =>
    let tabs := s.inFlow || !s.keyAllowed
    let c := (s.cursor.skipWhile fun c => c == ' ' || (tabs && c == '\t')).skipComment
    if c.atBreak then
      skipLayout fuel { s with cursor := c.skipBreak, keyAllowed := s.keyAllowed || !s.inFlow }
    else { s with cursor := c }

def isNameChar (c : Char) : Bool :=
  c.isAlphanum || c == '-' || c == '_'

/-- A token that leaves the line unfit for a simple key. -/
def plainStep (s : Scanner) (t : Token) (c : Cursor) : Scanner :=
  { s.push t with cursor := c, keyAllowed := false }

def reset (s : Scanner) : Option Scanner := do
  return { ← s.unrollAll.forgetKey with keyAllowed := false }

/-! ## Directives -/

def endOfLine? (c : Cursor) : Option Cursor :=
  let c := (c.skipWhile isBlank).skipComment
  if c.atBreak then some c.skipBreak else if c.atEnd then some c else none

def number? (c : Cursor) : Option (Nat × Cursor) :=
  let ds := c.rest.takeWhile Char.isDigit
  if ds.isEmpty || ds.length > 9 then none else some (JsonText.natOfDigits ds, c.skip ds.length)

def isTagChar (c : Char) : Bool :=
  isNameChar c || ";/?:@&=+$.%!~*'()".toList.contains c

def word (p : Char → Bool) (c : Cursor) : String × Cursor :=
  let w := c.rest.takeWhile p
  (String.ofList w, c.skip w.length)

def directive (s : Scanner) : Option Scanner := do
  let s ← s.reset
  let (name, c) := word isNameChar (s.cursor.skip 1)
  let blank := c.skipWhile isBlank
  if name = "YAML" then
    let (major, c) ← number? blank
    if c.rest.head? ≠ some '.' then none
    else
      let (minor, c) ← number? (c.skip 1)
      return s.plainStep (.version major minor) (← endOfLine? c)
  else if name = "TAG" ∧ c.atBlank then
    let (handle, c) := word isTagChar blank
    let (expansion, d) := word isTagChar (c.skipWhile isBlank)
    if !c.atBlank || !endsWord d.rest || !handle.toList.head?.any (· == '!') then none
    else return s.plainStep (.tagDirective handle expansion) (← endOfLine? d)
  else none

/-! ## Node properties -/

def anchorToken (s : Scanner) (make : String → Token) : Option Scanner := do
  let s ← s.noteKey
  let (name, c) := word isNameChar (s.cursor.skip 1)
  let ended := endsWord c.rest || c.rest.head?.any ("?:,]\x7d%@`".toList.contains ·)
  if name.isEmpty || !ended then none else return s.plainStep (make name) c

/-- A tag as the handle before its last part and that part; a verbatim tag has no handle. -/
def tagToken (s : Scanner) : Option Scanner := do
  let s ← s.noteKey
  let c := s.cursor.skip 1
  let (token, c) ←
    if c.rest.head? = some '<' then
      let (uri, c) := word (fun d => isTagChar d || d == ',' || d == '[' || d == ']') (c.skip 1)
      if uri.isEmpty || c.rest.head? ≠ some '>' then none else some (Token.tag "" uri, c.skip 1)
    else
      let (name, after) := word isNameChar c
      if after.rest.head? = some '!' then
        let (suffix, after) := word isTagChar (after.skip 1)
        if suffix.isEmpty then none else some (Token.tag ("!" ++ name ++ "!") suffix, after)
      else
        let (suffix, after) := word isTagChar c
        some (Token.tag "!" suffix, after)
  let ended := endsWord c.rest || (s.inFlow && c.rest.head? == some ',')
  if ended then return s.plainStep token c else none

/-! ## Scalars -/

def plainScalar (s : Scanner) : Option Scanner := do
  let s ← s.noteKey
  let indent := (s.indents.head?.map (· + 1)).getD 0
  let (text, afterBreak, c) ← s.cursor.plain s.inFlow indent
  return { s.push (.scalar (String.ofList text) true) with cursor := c, keyAllowed := afterBreak }

def quotedScalar (s : Scanner) (double : Bool) : Option Scanner := do
  let s ← s.noteKey
  let (text, c) ← s.cursor.quoted double
  return s.plainStep (.scalar (String.ofList text) false) c

def blockScalar (s : Scanner) (literal : Bool) : Option Scanner := do
  let s ← s.forgetKey
  let (text, c) ← s.cursor.block literal s.indents.head?
  return { s.push (.scalar (String.ofList text) false) with cursor := c, keyAllowed := true }

/-! ## Structure -/

def flowStart (s : Scanner) (t : Token) : Option Scanner := do
  let s ← s.noteKey
  return { s.push t with cursor := s.cursor.skip 1, keyAllowed := true, keys := none :: s.keys }

def flowEnd (s : Scanner) (t : Token) : Option Scanner := do
  let s ← s.forgetKey
  return { s.plainStep t (s.cursor.skip 1) with keys := if s.inFlow then s.keys.drop 1 else s.keys }

def flowSeparator (s : Scanner) : Option Scanner := do
  let s ← s.forgetKey
  return { s.push .flowEntry with cursor := s.cursor.skip 1, keyAllowed := true }

def blockEntry (s : Scanner) : Option Scanner := do
  if !s.inFlow && !s.keyAllowed then none
  else
    let s ← (s.roll s.cursor.column s.tokens.size .blockSequence).forgetKey
    return { s.push .entry with cursor := s.cursor.skip 1, keyAllowed := true }

def explicitKey (s : Scanner) : Option Scanner := do
  if !s.inFlow && !s.keyAllowed then none
  else
    let s ← (s.roll s.cursor.column s.tokens.size .blockMapping).forgetKey
    return { s.push .key with cursor := s.cursor.skip 1, keyAllowed := !s.inFlow }

def valueMark (s : Scanner) : Option Scanner :=
  let after (s : Scanner) (keyAllowed : Bool) : Scanner :=
    { s.push .value with cursor := s.cursor.skip 1, keyAllowed }
  match s.keys with
  | some k :: rest =>
    let s := { s with keys := none :: rest, tokens := s.tokens.insertIdxIfInBounds k.tokens .key }
    some (after (s.roll k.column k.tokens .blockMapping) false)
  | _ =>
    if s.inFlow then some (after s false)
    else if s.keyAllowed then some (after (s.roll s.cursor.column s.tokens.size .blockMapping) true)
    else none

def streamEnd (s : Scanner) : Option Scanner := do
  return (← s.reset).push .streamEnd

def documentMarker (s : Scanner) (t : Token) : Option Scanner := do
  let s ← s.reset
  return s.plainStep t (s.cursor.skip 3)

def startsPlain (s : Scanner) (c : Char) (rest : List Char) : Bool :=
  if isBlank c then false
  else if c = '-' then !(rest.head?.any isBlank)
  else if c = '?' ∨ c = ':' then !s.inFlow && !endsWord rest
  else !(",[]\x7b\x7d#&*!|>'\"%@`".toList.contains c)

def next (s : Scanner) : Option Scanner := do
  let s ← (skipLayout s.cursor.bound s).dropStale
  let s := s.unroll s.cursor.column
  let c := s.cursor
  match c.rest with
  | [] => s.streamEnd
  | d :: rest =>
    if c.column = 0 ∧ d = '%' then s.directive
    else if c.atMarker '-' then s.documentMarker .documentStart
    else if c.atMarker '.' then s.documentMarker .documentEnd
    else
      match d with
      | '[' => s.flowStart .flowSequence
      | '\x7b' => s.flowStart .flowMapping
      | ']' => s.flowEnd .flowSequenceEnd
      | '\x7d' => s.flowEnd .flowMappingEnd
      | ',' => s.flowSeparator
      | '*' => s.anchorToken .alias
      | '&' => s.anchorToken .anchor
      | '!' => s.tagToken
      | '\'' => s.quotedScalar false
      | '"' => s.quotedScalar true
      | _ =>
        if d = '-' ∧ endsWord rest then s.blockEntry
        else if d = '?' ∧ (s.inFlow || endsWord rest) then s.explicitKey
        else if d = ':' ∧ (s.inFlow || endsWord rest) then s.valueMark
        else if (d = '|' ∨ d = '>') ∧ !s.inFlow then s.blockScalar (d = '|')
        else if s.startsPlain d rest then s.plainScalar
        else none

/-- Each step but the last reads at least one character. -/
def run : Nat → Scanner → Option (Array Token)
  | 0, _ => none
  | fuel + 1, s => do
    let s ← s.next
    if s.tokens.back? = some .streamEnd then return s.tokens else run fuel s

end Scanner

/-- A byte order mark before the text is skipped. -/
def tokens? (text : String) : Option (List Token) :=
  let cs := match text.toList with
    | '\ufeff' :: rest => rest
    | cs => cs
  if !cs.all isReadable then none
  else (Scanner.run (cs.length + 2) ⟨.start cs, #[], [], true, [none]⟩).map (·.toList)

end ClientGen.Yaml
