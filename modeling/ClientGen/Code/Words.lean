import ClientGen.Code
import ClientGen.Ident
import ClientGen.Text.Category

/-! # Words of generated code

The texts that a code tree takes from outside and that are not written as literals: names, paths and
lines of docs. A tree is sound code when each of its words is.
-/
namespace ClientGen.Code

inductive Word
  /-- A name in the place where it is declared. -/
  | name (text : String)
  | path (text : String)
  /-- A path and the fields followed from there. -/
  | place (text : String)
  /-- Code of any kind, as a macro takes it. -/
  | tokens (text : String)
  | doc (line : String)
  deriving DecidableEq, Repr

/-! ## Sound words -/

/-- Words that name a segment of a path without being identifiers. -/
def pathKeywords : List String := ["self", "Self", "super", "crate"]

/-- A keyword only of later editions, an identifier still. -/
def softKeyword : String := "gen"

def isNameStart (c : Char) : Bool :=
  c == '_' || if Text.isAscii c then c.isAlpha else Text.isAlphanumeric c

def isNamePart (c : Char) : Bool :=
  c == '_' || Text.isAlphanumeric c

def isBareName (text : String) : Bool :=
  match text.toList with
  | [] => false
  | c :: rest => isNameStart c && rest.all isNamePart && text != "_"

def isName (text : String) : Bool :=
  let bare := Ident.unraw text
  isBareName bare &&
    if bare = text then !Ident.isKeyword text || text == softKeyword
    else !Ident.neverRaw.contains bare

def splitDoubleColons (acc : List Char) : List Char → List (List Char)
  | [] => [acc.reverse]
  | ':' :: ':' :: rest => acc.reverse :: splitDoubleColons [] rest
  | c :: rest => splitDoubleColons (c :: acc) rest

def isSegment (cs : List Char) : Bool :=
  let text := String.ofList (Text.trim cs)
  isName text || pathKeywords.contains text

/-- Segments between double colons, with or without double colons in front; or a lifetime. -/
def isPath (text : String) : Bool :=
  match splitDoubleColons [] text.toList with
  | [] => false
  | [['\'', '_']] => true
  | [first] =>
    isSegment first || (first.head? == some '\'' && isBareName (String.ofList first.tail))
  | first :: rest => ((Text.trim first).isEmpty || isSegment first) && rest.all isSegment

def isFieldKey (cs : List Char) : Bool :=
  isName (String.ofList cs) || (!cs.isEmpty && cs.all Char.isDigit)

def isPlace (text : String) : Bool :=
  match text.toList.splitOn '.' with
  | [] => false
  | first :: fields => isPath (String.ofList first) && fields.all isFieldKey

def tokenMarks : List Char := "~!@#$%^&*-=+|;:,<.>/?".toList

/-- A macro looks at its arguments itself; all it takes is whole tokens. -/
def isTokens (text : String) : Bool :=
  text.toList.all fun c => isNamePart c || Text.isBlank c || tokenMarks.contains c

/-- A doc comment ends where its line does. -/
def isDocLine (line : String) : Bool :=
  !(line.toList.contains '\n' || line.toList.contains '\r')

def Word.isSound : Word → Bool
  | name text => isName text
  | path text => isPath text
  | place text => isPlace text
  | tokens text => isTokens text
  | doc line => isDocLine line

/-- A word among the arguments of a macro. -/
def Word.inMacro : Word → Word
  | name text | path text | place text => tokens text
  | w => w

/-! ## Words of a tree -/

mutual

def Ty.words : Ty → List Word
  | .path name => [.path name]
  | .model none name => [.path name]
  | .model (some scope) name => [.path (scope ++ "::" ++ name)]
  | .option t | .vec t | .box t | .map t | .ref _ t | .mutableRef t | .into t => t.words
  | .generic base args => .path base :: typeWords args

def typeWords : List Ty → List Word
  | [] => []
  | t :: ts => t.words ++ typeWords ts

end

mutual

def Expr.words : Expr → List Word
  | .path name => [.place name]
  | .str _ => []
  | .call callee args => .path callee :: exprWords args
  | .method receiver name args => receiver.words ++ .name name :: exprWords args
  | .bang name args => .path name :: (exprWords args).map Word.inMacro
  | .ref e => e.words
  | .await e => e.words
  | .record name fields => .path name :: fieldWords fields
  | .cases subject arms => subject.words ++ armWords arms
  | .verbatim _ => []

def exprWords : List Expr → List Word
  | [] => []
  | e :: es => e.words ++ exprWords es

def fieldWords : List (String × Expr) → List Word
  | [] => []
  | (name, e) :: fs => .name name :: e.words ++ fieldWords fs

def armWords : List (String × Expr) → List Word
  | [] => []
  | (pattern, e) :: arms => .path pattern :: e.words ++ armWords arms

end

def optionalTypeWords (t : Option Ty) : List Word :=
  (t.map Ty.words).getD []

mutual

def Stmt.words : Stmt → List Word
  | .bind name _ type value => .name name :: optionalTypeWords type ++ value.words
  | .assign place value => .place place :: value.words
  | .run e => e.words
  | .result e => e.words
  | .ifLet _ value body => value.words ++ blockWords body
  | .ifThen cond body => cond.words ++ blockWords body
  | .ifElse cond body otherwise => cond.words ++ blockWords body ++ blockWords otherwise
  | .verbatim _ => []

def blockWords : List Stmt → List Word
  | [] => []
  | s :: rest => s.words ++ blockWords rest

end

def docWords (docs : List String) : List Word :=
  docs.map .doc

def Field.words (f : Field) : List Word :=
  docWords f.docs ++ .name f.name :: f.type.words

def StructBody.words : StructBody → List Word
  | fields fs => fs.flatMap Field.words
  | newtype t => t.words
  | unit => []

def Variant.words (v : Variant) : List Word :=
  docWords v.docs ++ .name v.name :: optionalTypeWords v.payload

def Function.words (f : Function) : List Word :=
  docWords f.docs ++ .name f.name :: f.params.flatMap (fun p => .name p.name :: p.type.words) ++
    optionalTypeWords f.result ++ blockWords f.body

def Member.words : Member → List Word
  | const c => docWords c.docs ++ .name c.name :: c.type.words ++ c.value.words
  | function f => f.words

def Import.words : Import → List Word
  | path _ => []
  | names scope ns => .path scope :: ns.map .path

def Item.words : Item → List Word
  | .use _ what => what.words
  | .mod _ name => [.name name]
  | .struct s => docWords s.docs ++ .name s.name :: s.body.words
  | .enum e => docWords e.docs ++ .name e.name :: e.variants.flatMap Variant.words
  | .alias a => docWords a.docs ++ .name a.name :: a.type.words
  | .impl i => optionalTypeWords i.trait ++ i.target.words ++ i.members.flatMap Member.words
  | .function f => f.words

def Module.words (m : Module) : List Word :=
  docWords m.docs ++ m.items.flatMap Item.words

end ClientGen.Code
