import ClientGen.Data.JsonText

/-! # A place in a YAML text

The characters that are left with their line and column, and the pieces that scalars are made of:
runs of blanks and line breaks, which fold, and escapes.
-/
namespace ClientGen.Yaml

structure Cursor where
  rest : List Char
  offset : Nat
  line : Nat
  column : Nat
  /-- More than the number of characters in the text, which bounds every loop over it. -/
  bound : Nat

def isBreak (c : Char) : Bool :=
  c == '\n' || c == '\r' || c == '\u0085' || c == '\u2028' || c == '\u2029'

def isBlank (c : Char) : Bool :=
  c == ' ' || c == '\t'

/-- Characters that may stand in a text at all. -/
def isReadable (c : Char) : Bool :=
  let n := c.toNat
  c == '\t' || c == '\n' || c == '\r' || (0x20 ≤ n && n ≤ 0x7e) || n == 0x85 ||
    (0xa0 ≤ n && n ≤ 0xfffd && n != 0xfeff) || 0x10000 ≤ n

/-- Blanks, line breaks and the end of the text all end a word. -/
def endsWord : List Char → Bool
  | [] => true
  | c :: _ => isBlank c || isBreak c

namespace Cursor

def start (text : List Char) : Cursor :=
  ⟨text, 0, 0, 0, text.length + 2⟩

def atBlank (c : Cursor) : Bool :=
  c.rest.head?.any isBlank

def atBreak (c : Cursor) : Bool :=
  c.rest.head?.any isBreak

def atEnd (c : Cursor) : Bool :=
  c.rest.isEmpty

/-- Past `n` characters of the same line. -/
def skip (c : Cursor) (n : Nat) : Cursor :=
  { c with rest := c.rest.drop n, offset := c.offset + n, column := c.column + n }

def skipWhile (p : Char → Bool) (c : Cursor) : Cursor :=
  c.skip (c.rest.takeWhile p).length

/-- Past one line break. -/
def skipBreak (c : Cursor) : Cursor :=
  match c.rest with
  | '\r' :: '\n' :: rest => { c with rest, offset := c.offset + 2, line := c.line + 1, column := 0 }
  | _ :: rest => { c with rest, offset := c.offset + 1, line := c.line + 1, column := 0 }
  | [] => c

/-- What a line break contributes to a scalar. -/
def breakText (c : Cursor) : List Char :=
  match c.rest with
  | [] => []
  | b :: _ => if b = '\u2028' ∨ b = '\u2029' then [b] else ['\n']

/-- `---` or `...` alone at the start of a line. -/
def atMarker (c : Cursor) (mark : Char) : Bool :=
  c.column == 0 && (c.rest.take 3 == [mark, mark, mark]) && endsWord (c.rest.drop 3)

def atDocumentMarker (c : Cursor) : Bool :=
  c.atMarker '-' || c.atMarker '.'

/-- Up to the end of the line, when a comment begins here. -/
def skipComment (c : Cursor) : Cursor :=
  if c.rest.head? = some '#' then c.skipWhile (! isBreak ·) else c

end Cursor

/-- Blanks between words, or the line breaks among them: the first, and those after it. -/
inductive Gap
  | blanks (text : List Char)
  | breaks (first : List Char) (later : List Char)

/-- A single line feed folds into a space; it disappears before further ones. -/
def Gap.text : Gap → List Char
  | blanks text => text
  | breaks first later =>
    if first = ['\n'] then (if later.isEmpty then [' '] else later) else first ++ later

def Gap.hasBreak : Gap → Bool
  | blanks _ => false
  | breaks .. => true

/-- The gap from here on; after a break no tab may stand left of `indent`. -/
def gap (indent : Nat) : Nat → Gap → Cursor → Option (Gap × Cursor)
  | 0, _, _ => none
  | fuel + 1, g, c =>
    match c.rest with
    | [] => some (g, c)
    | b :: _ =>
      if isBlank b then
        match g with
        | .blanks text => gap indent fuel (.blanks (text ++ [b])) (c.skip 1)
        | .breaks .. => if b = '\t' ∧ c.column < indent then none else gap indent fuel g (c.skip 1)
      else if isBreak b then
        match g with
        | .blanks _ => gap indent fuel (.breaks c.breakText []) c.skipBreak
        | .breaks first later => gap indent fuel (.breaks first (later ++ c.breakText)) c.skipBreak
      else some (g, c)

def Cursor.gap (c : Cursor) (indent : Nat) (g : Gap) : Option (Gap × Cursor) :=
  Yaml.gap indent c.bound g c

def codeEscape? (n : Nat) (c : Cursor) : Option (Char × Cursor) := do
  let ds := (c.rest.drop 1).take n
  let code ← if ds.length < n then none else JsonText.hexNumber? ds
  if (0xd800 ≤ code ∧ code < 0xe000) ∨ 0x10ffff < code then none
  else return (Char.ofNat code, c.skip (n + 1))

/-- An escape after its backslash. -/
def escape? (c : Cursor) : Option (Char × Cursor) :=
  let as (d : Char) := some (d, c.skip 1)
  match c.rest with
  | '0' :: _ => as '\x00'
  | 'a' :: _ => as '\x07'
  | 'b' :: _ => as '\x08'
  | 't' :: _ => as '\t'
  | '\t' :: _ => as '\t'
  | 'n' :: _ => as '\n'
  | 'v' :: _ => as '\x0b'
  | 'f' :: _ => as '\x0c'
  | 'r' :: _ => as '\r'
  | 'e' :: _ => as '\x1b'
  | ' ' :: _ => as ' '
  | '"' :: _ => as '"'
  | '/' :: _ => as '/'
  | '\\' :: _ => as '\\'
  | 'N' :: _ => as '\u0085'
  | '_' :: _ => as '\u00a0'
  | 'L' :: _ => as '\u2028'
  | 'P' :: _ => as '\u2029'
  | 'x' :: _ => codeEscape? 2 c
  | 'u' :: _ => codeEscape? 4 c
  | 'U' :: _ => codeEscape? 8 c
  | _ => none

end ClientGen.Yaml
