/-! # Binary floating-point numbers

Numbers `± m · 2^q` with a mantissa below `2^53` and `q` at least `-1074`. A number with a mantissa
below `2^52` has `q = -1074`, so each number has one form.
-/
namespace ClientGen

inductive Binary64
  | nan
  | infinity (negative : Bool)
  | finite (negative : Bool) (mantissa : Nat) (exponent : Int)
  deriving DecidableEq, Repr

namespace Binary64

def leastExponent : Int := -1074

def twoTo (n : Nat) : Nat := Nat.pow 2 n

def tenTo (n : Nat) : Nat := Nat.pow 10 n

/-- `num / den` to the nearest integer, a half to the even one. -/
def roundHalfEven (num den : Nat) : Nat :=
  let floor := num / den
  let twice := 2 * (num % den)
  if twice < den then floor
  else if twice > den then floor + 1
  else floor + floor % 2

/-- `num / (den · 2^q)` as numerator and denominator. -/
def scaleDown (num den : Nat) (q : Int) : Nat × Nat :=
  if q ≥ 0 then (num, den * twoTo q.toNat) else (num * twoTo (-q).toNat, den)

/-- The number nearest to `num / den`. -/
def ofRatio (negative : Bool) (num den : Nat) : Binary64 :=
  if num = 0 then finite negative 0 leastExponent
  else
    let low := max ((Nat.log2 num : Int) - Nat.log2 den - 53) leastExponent
    let (n, d) := scaleDown num den low
    let q := if n / d < twoTo 53 then low else low + 1
    let (n, d) := scaleDown num den q
    let m := roundHalfEven n d
    let (m, q) := if m = twoTo 53 then (twoTo 52, q + 1) else (m, q)
    if q > 971 then infinity negative else finite negative m q

/-- The number nearest to `± digits · 10^exponent`. Far outside the range of exponents the answer
is known without the power. -/
def ofDecimal (negative : Bool) (digits : Nat) (exponent : Int) : Binary64 :=
  let size := (Nat.toDigits 10 digits).length
  if digits = 0 then finite negative 0 leastExponent
  else if size + exponent > 400 then infinity negative
  else if size + exponent < -400 then finite negative 0 leastExponent
  else if exponent ≥ 0 then ofRatio negative (digits * tenTo exponent.toNat) 1
  else ofRatio negative digits (tenTo (-exponent).toNat)

def ofInt (i : Int) : Binary64 :=
  ofRatio (i < 0) i.natAbs 1

def isFinite : Binary64 → Bool
  | finite .. => true
  | _ => false

end Binary64
end ClientGen
