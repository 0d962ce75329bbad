import ClientGen.Text.Category

/-! # Cutting text

Searching, replacing and trimming on lists of characters, and the lines of a text.
-/
namespace ClientGen.Text

/-- White space of any script, line and paragraph separators included. -/
def isBlank (c : Char) : Bool :=
  let n := c.toNat
  (9 ≤ n && n ≤ 13) || n == 0x20 || n == 0x85 || n == 0xa0 || n == 0x1680 ||
    (0x2000 ≤ n && n ≤ 0x200a) || n == 0x2028 || n == 0x2029 || n == 0x202f || n == 0x205f ||
    n == 0x3000

def isControl (c : Char) : Bool :=
  c.toNat < 32 || (127 ≤ c.toNat && c.toNat < 160)

def trimEnd (cs : List Char) : List Char :=
  (cs.reverse.dropWhile isBlank).reverse

def trim (cs : List Char) : List Char :=
  trimEnd (cs.dropWhile isBlank)

def occursIn (needle : List Char) : List Char → Bool
  | [] => needle.isEmpty
  | c :: cs => needle.isPrefixOf (c :: cs) || occursIn needle cs

/-- What stands before and after the first `sep`. -/
def splitOnce (sep : Char) (cs : List Char) : Option (List Char × List Char) :=
  match cs.dropWhile (· != sep) with
  | [] => none
  | _ :: rest => some (cs.takeWhile (· != sep), rest)

/-- The non-empty pieces between separators. -/
def pieces (isSep : Char → Bool) (cs : List Char) : List (List Char) :=
  (cs.splitOnP isSep).filter (! ·.isEmpty)

/-- A line feed ends a line; a text that ends in one has no further empty line. -/
def lines (cs : List Char) : List (List Char) :=
  let parts := cs.splitOn '\n'
  if parts.getLast? = some [] then parts.dropLast else parts

def lowerAscii (s : String) : String :=
  String.ofList (s.toList.map Char.toLower)

def upperAscii (s : String) : String :=
  String.ofList (s.toList.map Char.toUpper)

/-- Each `c` replaced by `new`. -/
def replaceChar (c : Char) (new : String) (s : String) : String :=
  String.ofList (s.toList.flatMap fun d => if d = c then new.toList else [d])

end ClientGen.Text
