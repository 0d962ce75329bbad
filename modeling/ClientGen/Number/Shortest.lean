import ClientGen.Number.Binary64

/-! # Shortest decimal text

The fewest digits that read back as the same number, and of those the nearest to it. A number below
`10^-4` or from `10^16` on is written with an exponent, any other with a point and at least one
digit on either side of it.
-/
namespace ClientGen.Binary64

/-- The reals that round to a number, in units of `2^unit`. -/
structure Interval where
  low : Nat
  value : Nat
  high : Nat
  /-- Whether the two ends belong to it. -/
  closed : Bool
  unit : Int

/-- Below a power of two the neighbours are half as far away. -/
def interval (m : Nat) (q : Int) : Interval :=
  let below := if m = twoTo 52 ∧ q > leastExponent then 1 else 2
  ⟨4 * m - below, 4 * m, 4 * m + 2, m % 2 = 0, q - 2⟩

/-- `n · 2^unit / 10^e` as numerator and denominator. -/
def onGrid (n : Nat) (unit e : Int) : Nat × Nat :=
  (n * twoTo unit.toNat * tenTo (-e).toNat, twoTo (-unit).toNat * tenTo e.toNat)

/-- `d · 10^e` lies in the interval. -/
def Interval.contains (i : Interval) (e : Int) (d : Nat) : Bool :=
  let (low, den) := onGrid i.low i.unit e
  let (high, _) := onGrid i.high i.unit e
  if i.closed then low ≤ d * den && d * den ≤ high else low < d * den && d * den < high

/-- The nearest multiple of `10^e` in the interval; of two equally near ones the larger. -/
def Interval.nearest? (i : Interval) (e : Int) : Option Nat :=
  let (n, den) := onGrid i.value i.unit e
  let d := n / den
  let down := i.contains e d
  let up := i.contains e (d + 1)
  if up && (!down || 2 * (n % den) ≥ den) then some (d + 1)
  else if down then some d
  else none

/-- The exponent of the value's first decimal digit. -/
def Interval.magnitude (i : Interval) : Int :=
  let (n, den) := onGrid i.value i.unit 0
  let guess : Int := (Nat.toDigits 10 n).length - (Nat.toDigits 10 den).length
  let (n, den) := onGrid i.value i.unit guess
  if n ≥ den then guess else guess - 1

/-- Digits and the exponent of the last one. Seventeen digits always suffice. -/
def shortest (m : Nat) (q : Int) : Nat × Int :=
  let i := interval m q
  let found := (List.range 17).findSome? fun (k : Nat) =>
    let e := i.magnitude - k
    (i.nearest? e).map (·, e)
  found.getD (0, 0)

def dropTrailingZeros (ds : List Char) : List Char :=
  match (ds.reverse.dropWhile (· == '0')).reverse with
  | [] => ['0']
  | ds => ds

def zeros (n : Int) : List Char :=
  List.replicate n.toNat '0'

/-- `0.ds · 10^point` without an exponent. -/
def positional (ds : List Char) (point : Int) : List Char :=
  if point ≤ 0 then ['0', '.'] ++ zeros (-point) ++ ds
  else if point ≥ ds.length then ds ++ zeros (point - ds.length) ++ ['.', '0']
  else ds.take point.toNat ++ ['.'] ++ ds.drop point.toNat

/-- `0.ds · 10^point` with one digit before the point. -/
def scientific (ds : List Char) (point : Int) : List Char :=
  let tail := ds.drop 1
  ds.take 1 ++ (if tail.isEmpty then [] else '.' :: tail) ++ ['e'] ++ (toString (point - 1)).toList

def magnitudeText (m : Nat) (q : Int) : List Char :=
  if m = 0 then ['0', '.', '0']
  else
    let (d, e) := shortest m q
    let all := Nat.toDigits 10 d
    let point : Int := all.length + e
    let ds := dropTrailingZeros all
    if point > 16 ∨ point < -3 then scientific ds point else positional ds point

def text : Binary64 → String
  | nan => "NaN"
  | infinity negative => if negative then "-inf" else "inf"
  | finite negative m q => String.ofList ((if negative then ['-'] else []) ++ magnitudeText m q)

end ClientGen.Binary64
