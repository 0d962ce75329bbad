import ClientGen.Data.Yaml.Token

/-! # YAML text

The reader accepts a text with one document or none. An alias stands for what its anchor named, and
for nothing usable inside the very node that the anchor names.
-/
namespace ClientGen.Yaml

/-- Handles of the document with what they expand to. -/
abbrev TagHandles := List (String × String)

/-- Anchored nodes, latest first; a node that is still being read is broken. -/
abbrev Anchors := List (String × Tree)

abbrev State := List Token × Anchors

def maxDepth : Nat := 128

def emptyNode : Tree := .scalar "" .null

def coreTag (name : String) : String := "tag:yaml.org,2002:" ++ name

def expandTag? (handles : TagHandles) : Token → Option String
  | .tag handle suffix =>
    if handle.isEmpty then some suffix else (handles.lookup handle).map (· ++ suffix)
  | _ => none

/-- A scalar under a tag of the core types means a value of that type, or nothing. -/
def taggedScalar (tag text : String) : Tree :=
  let typed (t : Option Tree) : Tree := .scalar text (t.getD .broken)
  if tag = coreTag "bool" then typed ((bool? text).map .bool)
  else if tag = coreTag "int" then typed (wholeTree? text.toList)
  else if tag = coreTag "float" then typed ((float? text.toList).map .float)
  else if tag = coreTag "null" then typed (if isNullWord text then some .null else none)
  else if tag.toList.head? = some '!' then typed none
  else .scalar text (.text text)

def scalarNode (tag : Option String) (text : String) (plain : Bool) : Tree :=
  match tag with
  | some tag => taggedScalar tag text
  | none => if plain then .scalar text (meaning text) else .text text

def key? : Tree → Option Key
  | .text s => some (.text s)
  | .scalar s (.text _) => some (.text s)
  | .scalar s (.int i) => some (.bare s (if 0 ≤ i then some i.toNat else none))
  | .scalar s _ => some (.bare s none)
  | _ => none

def mappingNode (pairs : List (Tree × Tree)) : Tree :=
  match pairs.mapM fun (k, v) => (key? k).map (·, v) with
  | some ms => .object ms
  | none => .broken

/-- Anchor and tag before a node, in either order. -/
def properties (handles : TagHandles) :
    List Token → Option (Option String × Option String × List Token)
  | .anchor a :: .tag h s :: rest => do
    return (some a, some (← expandTag? handles (.tag h s)), rest)
  | .tag h s :: .anchor a :: rest => do
    return (some a, some (← expandTag? handles (.tag h s)), rest)
  | .anchor a :: rest => some (some a, none, rest)
  | .tag h s :: rest => do return (none, some (← expandTag? handles (.tag h s)), rest)
  | rest => some (none, none, rest)

/-- The node that is complete takes the place that was kept for it. -/
def nameNode (place : Nat) (t : Tree) (anchors : Anchors) : Anchors :=
  anchors.modify (anchors.length - 1 - place) fun (a, _) => (a, t)

def startsNode (ends : List Token) : List Token → Bool
  | [] => false
  | t :: _ => !ends.contains t

mutual

def node (handles : TagHandles) (block indentless : Bool) : Nat → State → Option (Tree × State)
  | 0, _ => none
  | fuel + 1, (tokens, anchors) =>
    match tokens with
    | .alias name :: rest => (anchors.lookup name).map (·, rest, anchors)
    | _ => do
      let (anchor, tag, tokens) ← properties handles tokens
      let place := anchors.length
      let anchors := (anchor.map fun a => (a, Tree.broken) :: anchors).getD anchors
      let marked := anchor.isSome || tag.isSome
      let (t, rest, anchors) ← content handles block indentless marked tag fuel (tokens, anchors)
      return (t, rest, if anchor.isSome then nameNode place t anchors else anchors)

def content (handles : TagHandles) (block indentless marked : Bool) (tag : Option String) :
    Nat → State → Option (Tree × State)
  | 0, _ => none
  | fuel + 1, (tokens, anchors) =>
    match tokens with
    | .scalar text plain :: rest => some (scalarNode tag text plain, rest, anchors)
    | .flowSequence :: rest => do
      let (ts, s) ← flowItems handles true fuel (rest, anchors)
      return (.list ts, s)
    | .flowMapping :: rest => do
      let (ps, s) ← flowPairs handles true fuel (rest, anchors)
      return (mappingNode ps, s)
    | .entry :: _ =>
      if indentless then do
        let (ts, s) ← plainItems handles fuel (tokens, anchors)
        return (.list ts, s)
      else if marked then some (scalarNode tag "" true, tokens, anchors)
      else none
    | .blockSequence :: rest =>
      if block then do
        let (ts, s) ← blockItems handles fuel (rest, anchors)
        return (.list ts, s)
      else none
    | .blockMapping :: rest =>
      if block then do
        let (ps, s) ← blockPairs handles fuel (rest, anchors)
        return (mappingNode ps, s)
      else none
    | _ => if marked then some (scalarNode tag "" true, tokens, anchors) else none

/-- A node unless one of `ends` comes first. -/
def optionalNode (handles : TagHandles) (block indentless : Bool) (ends : List Token) :
    Nat → State → Option (Tree × State)
  | 0, _ => none
  | fuel + 1, (tokens, anchors) =>
    if startsNode ends tokens then node handles block indentless fuel (tokens, anchors)
    else some (emptyNode, tokens, anchors)

def blockItems (handles : TagHandles) : Nat → State → Option (List Tree × State)
  | 0, _ => none
  | fuel + 1, (tokens, anchors) =>
    match tokens with
    | .entry :: rest => do
      let (t, s) ← optionalNode handles true false [.entry, .blockEnd] fuel (rest, anchors)
      let (ts, s) ← blockItems handles fuel s
      return (t :: ts, s)
    | .blockEnd :: rest => some ([], rest, anchors)
    | _ => none

/-- Items at the indentation of the mapping around them, which no token closes. -/
def plainItems (handles : TagHandles) : Nat → State → Option (List Tree × State)
  | 0, _ => none
  | fuel + 1, (tokens, anchors) =>
    match tokens with
    | .entry :: rest => do
      let ends : List Token := [.entry, .key, .value, .blockEnd]
      let (t, s) ← optionalNode handles true false ends fuel (rest, anchors)
      let (ts, s) ← plainItems handles fuel s
      return (t :: ts, s)
    | _ => some ([], tokens, anchors)

def blockPairs (handles : TagHandles) : Nat → State → Option (List (Tree × Tree) × State)
  | 0, _ => none
  | fuel + 1, (tokens, anchors) =>
    let ends : List Token := [.key, .value, .blockEnd]
    match tokens with
    | .key :: rest => do
      let (k, tokens, anchors) ← optionalNode handles true true ends fuel (rest, anchors)
      let (v, s) ← match tokens with
        | .value :: rest => optionalNode handles true true ends fuel (rest, anchors)
        | _ => some (emptyNode, tokens, anchors)
      let (ps, s) ← blockPairs handles fuel s
      return ((k, v) :: ps, s)
    | .blockEnd :: rest => some ([], rest, anchors)
    | _ => none

/-- What follows a value mark inside a flow collection that `close` ends. -/
def flowValue (handles : TagHandles) (close : Token) : Nat → State → Option (Tree × State)
  | 0, _ => none
  | fuel + 1, (tokens, anchors) =>
    match tokens with
    | .value :: rest => optionalNode handles false false [.flowEntry, close] fuel (rest, anchors)
    | _ => some (emptyNode, tokens, anchors)

/-- Items of a flow sequence; an item may be a single pair. -/
def flowItems (handles : TagHandles) (first : Bool) : Nat → State → Option (List Tree × State)
  | 0, _ => none
  | fuel + 1, (tokens, anchors) =>
    let item (tokens : List Token) : Option (List Tree × State) :=
      match tokens with
      | .flowSequenceEnd :: rest => some ([], rest, anchors)
      | .key :: rest => do
        let (k, s) ← optionalNode handles false false [.value, .flowEntry, .flowSequenceEnd] fuel
          (rest, anchors)
        let (v, s) ← flowValue handles .flowSequenceEnd fuel s
        let (ts, s) ← flowItems handles false fuel s
        return (mappingNode [(k, v)] :: ts, s)
      | _ => do
        let (t, s) ← node handles false false fuel (tokens, anchors)
        let (ts, s) ← flowItems handles false fuel s
        return (t :: ts, s)
    match tokens with
    | .flowSequenceEnd :: rest => some ([], rest, anchors)
    | .flowEntry :: rest => if first then none else item rest
    | _ => if first then item tokens else none

def flowPairs (handles : TagHandles) (first : Bool) :
    Nat → State → Option (List (Tree × Tree) × State)
  | 0, _ => none
  | fuel + 1, (tokens, anchors) =>
    let pair (tokens : List Token) : Option (List (Tree × Tree) × State) :=
      match tokens with
      | .flowMappingEnd :: rest => some ([], rest, anchors)
      | .key :: rest => do
        let (k, s) ← optionalNode handles false false [.value, .flowEntry, .flowMappingEnd] fuel
          (rest, anchors)
        let (v, s) ← flowValue handles .flowMappingEnd fuel s
        let (ps, s) ← flowPairs handles false fuel s
        return ((k, v) :: ps, s)
      | _ => do
        let (k, s) ← node handles false false fuel (tokens, anchors)
        let (ps, s) ← flowPairs handles false fuel s
        return ((k, emptyNode) :: ps, s)
    match tokens with
    | .flowMappingEnd :: rest => some ([], rest, anchors)
    | .flowEntry :: rest => if first then none else pair rest
    | _ => if first then pair tokens else none

end

/-! ## Documents -/

def isVersion : Token → Bool
  | .version .. => true
  | _ => false

/-- The directives before a document. Versions 1.1 and 1.2 are known; no handle is given twice. -/
def directives : TagHandles → List Token → Option (TagHandles × List Token)
  | handles, .version major minor :: rest =>
    let isKnown := major == 1 && (minor == 1 || minor == 2)
    if isKnown && !rest.any isVersion then directives handles rest else none
  | handles, .tagDirective handle expansion :: rest =>
    if (handles.lookup handle).isSome then none
    else directives ((handle, expansion) :: handles) rest
  | handles, rest => some (handles, rest)

def defaultHandles : TagHandles := [("!", "!"), ("!!", coreTag "")]

def endsDocument : Token → Bool
  | .documentEnd | .documentStart | .streamEnd | .version .. | .tagDirective .. => true
  | _ => false

/-- Given handles come before the default ones, which they may redefine. -/
def document? (tokens : List Token) : Option Tree := do
  let (given, afterDirectives) ← directives [] tokens
  let handles := given ++ defaultHandles
  let fuel := 4 * tokens.length + 4
  let explicit := afterDirectives.head? = some .documentStart
  if !explicit && afterDirectives.length < tokens.length then none
  else if tokens.head? = some .streamEnd then return emptyNode
  else
    let body := if explicit then afterDirectives.drop 1 else afterDirectives
    let (t, rest, _) ←
      if explicit ∧ body.head?.any endsDocument then some (emptyNode, body, [])
      else node handles true false fuel (body, [])
    if rest.dropWhile (· == .documentEnd) = [.streamEnd] then return t else none

def read? (text : String) : Option Tree := do
  return (← document? (← tokens? text)).limitDepth maxDepth

end ClientGen.Yaml
