/-! Binary floating point numbers of double precision, in exact arithmetic: a finite number is
± m · 2^e with m below 2^53 and e at least -1074, and m is at least 2^52 unless e is -1074. -/
namespace LuaExpander

inductive Double where
  | finite (negative : Bool) (mantissa : Nat) (exponent : Int)
  | infinite (negative : Bool)
  | nan
  deriving DecidableEq, Repr

namespace Double

def leastExponent : Int := -1074

def zero (negative : Bool) : Double := .finite negative 0 leastExponent

/- The whole number nearest to `num / den`; of two that are equally near, the even one. -/
def roundDiv (num den : Nat) : Nat :=
  let whole := num / den
  let twice := 2 * (num % den)
  if twice < den ∨ (twice = den ∧ whole % 2 = 0) then whole else whole + 1

def floorLog2 (num den : Nat) : Int :=
  let guess : Int := (Nat.log2 num : Int) - Nat.log2 den
  let below :=
    if guess < 0 then num * Nat.pow 2 guess.natAbs < den
    else num < den * Nat.pow 2 guess.toNat
  if below then guess - 1 else guess

def ofRatio (negative : Bool) (num den : Nat) : Double :=
  if num = 0 then zero negative
  else
    let exponent := max (floorLog2 num den - 52) leastExponent
    let mantissa :=
      if exponent < 0 then roundDiv (num * Nat.pow 2 exponent.natAbs) den
      else roundDiv num (den * Nat.pow 2 exponent.toNat)
    let (mantissa, exponent) :=
      if mantissa = Nat.pow 2 53 then (Nat.pow 2 52, exponent + 1) else (mantissa, exponent)
    if exponent > 971 then .infinite negative else .finite negative mantissa exponent

/- The number nearest to ± n · 2^e. Exponents far out of range are not carried out. -/
def ofBinary (negative : Bool) (n : Nat) (e : Int) : Double :=
  if n = 0 then zero negative
  else
    let top := (Nat.log2 n : Int) + 1 + e
    if top > 1024 then .infinite negative
    else if top < leastExponent then zero negative
    else if e < 0 then ofRatio negative n (Nat.pow 2 e.natAbs)
    else ofRatio negative (n * Nat.pow 2 e.toNat) 1

def digitCount (n : Nat) : Nat := (Nat.toDigits 10 n).length

def ofDecimal (negative : Bool) (n : Nat) (e : Int) : Double :=
  if n = 0 then zero negative
  else
    let top := (digitCount n : Int) + e
    if top > 310 then .infinite negative
    else if top < -330 then zero negative
    else if e < 0 then ofRatio negative n (Nat.pow 10 e.natAbs)
    else ofRatio negative (n * Nat.pow 10 e.toNat) 1

def neg : Double → Double
  | .finite negative m e => .finite (!negative) m e
  | .infinite negative => .infinite (!negative)
  | .nan => .nan

def units : Double → Int
  | .finite negative m e =>
    let size := m * Nat.pow 2 (e - leastExponent).toNat
    if negative then -(size : Int) else size
  | _ => 0

def add : Double → Double → Double
  | .nan, _ | _, .nan => .nan
  | .infinite a, .infinite b => if a = b then .infinite a else .nan
  | .infinite a, _ => .infinite a
  | _, .infinite b => .infinite b
  | x@(.finite a m _), y@(.finite b n _) =>
    let sum := x.units + y.units
    if sum = 0 then zero (m = 0 && n = 0 && a && b)
    else ofBinary (sum < 0) sum.natAbs leastExponent

def lt : Double → Double → Bool
  | .nan, _ | _, .nan => false
  | .infinite a, .infinite b => a && !b
  | .infinite a, .finite _ _ _ => a
  | .finite _ _ _, .infinite b => !b
  | x@(.finite _ _ _), y@(.finite _ _ _) => x.units < y.units

def equal : Double → Double → Bool
  | .nan, _ | _, .nan => false
  | x@(.finite _ _ _), y@(.finite _ _ _) => x.units == y.units
  | x, y => x == y

def isZero : Double → Bool
  | .finite _ m _ => m == 0
  | _ => false

end Double

end LuaExpander
