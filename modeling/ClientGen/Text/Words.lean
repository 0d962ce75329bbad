import ClientGen.Text.CaseMap
import ClientGen.Text.Cut

/-! # Words in an identifier

A text falls into words at every character that is neither letter nor digit, between a lower-case
and an upper-case letter, and before the last capital of a run that a lower-case letter follows
(`XMLHttp` is `XML` and `Http`). Characters without case leave the current mode as it is.
-/
namespace ClientGen.Text

inductive WordMode
  | start
  | lower
  | upper
  deriving DecidableEq, Repr

def WordMode.next (mode : WordMode) (c : Char) : WordMode :=
  if isLower c then .lower else if isUpper c then .upper else mode

/-- The words of a run of letters and digits; `word` is the one being read. -/
def humps (mode : WordMode) (word : List Char) : List Char → List (List Char)
  | [] => []
  | [c] => [word ++ [c]]
  | c :: d :: rest =>
    if mode.next c = .lower ∧ isUpper d then (word ++ [c]) :: humps .start [] (d :: rest)
    else if mode = .upper ∧ isUpper c ∧ isLower d then word :: humps .start [c] (d :: rest)
    else humps (mode.next c) (word ++ [c]) (d :: rest)

def words (cs : List Char) : List (List Char) :=
  (pieces (! isAlphanumeric ·) cs).flatMap (humps .start [])

/-- A capital sigma that ends the word takes its final form. -/
def lowerWord : List Char → List Char
  | [] => []
  | [c] => if c = 'Σ' then ['ς'] else toLower c
  | c :: rest => toLower c ++ lowerWord rest

def capitalizeWord : List Char → List Char
  | [] => []
  | c :: rest => toUpper c ++ lowerWord rest

def snakeCase (cs : List Char) : List Char :=
  ['_'].intercalate ((words cs).map lowerWord)

def lowerCamelCase (cs : List Char) : List Char :=
  match words cs with
  | [] => []
  | first :: others => lowerWord first ++ others.flatMap capitalizeWord

end ClientGen.Text
