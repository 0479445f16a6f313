import LuaExpander.Numeral.Double

/-! The shortest decimal text that reads back as a given number: the fewest digits of all decimals
that round to it and, of those, the decimal nearest to it; of two that are equally near, the one
with the even last digit. -/
namespace LuaExpander.Shortest

/- A positive value `num / den` with the reals that round to it, `lower / den` to `upper / den`; the
ends are among them if `closed`. -/
structure Interval where
  num : Nat
  den : Nat
  lower : Nat
  upper : Nat
  closed : Bool
  deriving DecidableEq, Repr

/- All numbers are in quarters of the least digit, so that halves between neighbours are whole. The
neighbour below a power of two is only half as far away as the one above. -/
def interval (mantissa : Nat) (exponent : Int) : Interval :=
  let narrow : Bool := mantissa = Nat.pow 2 52 ∧ exponent > Double.leastExponent
  let scale (n : Nat) : Nat := if exponent < 0 then n else n * Nat.pow 2 exponent.toNat
  { num := scale (4 * mantissa)
    den := if exponent < 0 then 4 * Nat.pow 2 exponent.natAbs else 4
    lower := scale (4 * mantissa - if narrow then 1 else 2)
    upper := scale (4 * mantissa + 2)
    closed := mantissa % 2 = 0 }

def Interval.has (i : Interval) (n : Nat) (power : Int) : Bool :=
  let left := if power < 0 then n * i.den else n * Nat.pow 10 power.toNat * i.den
  let unit := if power < 0 then Nat.pow 10 power.natAbs else 1
  if i.closed then i.lower * unit ≤ left ∧ left ≤ i.upper * unit
  else i.lower * unit < left ∧ left < i.upper * unit

def floorLog10 (num den : Nat) : Nat → Int → Int
  | 0, guess => guess
  | fuel + 1, guess =>
    let reached :=
      if guess < 0 then den ≤ num * Nat.pow 10 guess.natAbs
      else den * Nat.pow 10 guess.toNat ≤ num
    if reached then guess else floorLog10 num den fuel (guess - 1)

def Interval.below (i : Interval) (power : Int) : Nat :=
  if power < 0 then i.num * Nat.pow 10 power.natAbs / i.den
  else i.num / (i.den * Nat.pow 10 power.toNat)

def Interval.nearest (i : Interval) (power : Int) : Nat :=
  if power < 0 then Double.roundDiv (i.num * Nat.pow 10 power.natAbs) i.den
  else Double.roundDiv i.num (i.den * Nat.pow 10 power.toNat)

/- The first grid, from coarse to fine, on which a neighbour of the value rounds to it. -/
def search (i : Interval) : Nat → Int → Nat × Int
  | 0, power => (i.nearest power, power)
  | fuel + 1, power =>
    let low := i.below power
    match i.has low power, i.has (low + 1) power with
    | true, true => (i.nearest power, power)
    | true, false => (low, power)
    | false, true => (low + 1, power)
    | false, false => search i fuel (power - 1)

def reduce : Nat → Nat → Int → Nat × Int
  | 0, n, power => (n, power)
  | fuel + 1, n, power =>
    if n ≠ 0 ∧ n % 10 = 0 then reduce fuel (n / 10) (power + 1) else (n, power)

def digits (mantissa : Nat) (exponent : Int) : Nat × Int :=
  let i := interval mantissa exponent
  let guess : Int := ((Nat.log2 mantissa : Int) + exponent) * 30103 / 100000 + 2
  let top := floorLog10 i.num i.den 6 guess
  let (n, power) := search i 17 top
  reduce 20 n power

structure Layout where
  positionalFrom : Int
  positionalBelow : Int
  exponentWidth : Nat
  deriving DecidableEq, Repr

def padLeft (width : Nat) (cs : List Char) : List Char :=
  List.replicate (width - cs.length) '0' ++ cs

def pointed : List Char → List Char
  | [] => []
  | [c] => [c]
  | c :: cs => c :: '.' :: cs

def positional (cs : List Char) (power : Int) : List Char :=
  if 0 ≤ power then cs ++ List.replicate power.toNat '0' ++ ['.', '0']
  else
    let cs := padLeft (power.natAbs + 1) cs
    let whole := cs.length - power.natAbs
    cs.take whole ++ '.' :: cs.drop whole

def scientific (layout : Layout) (cs : List Char) (top : Int) : List Char :=
  let sign := if top < 0 then '-' else '+'
  pointed cs ++ 'e' :: sign :: padLeft layout.exponentWidth (Nat.toDigits 10 top.natAbs)

def render (layout : Layout) (mantissa : Nat) (exponent : Int) : List Char :=
  let (n, power) := digits mantissa exponent
  let cs := Nat.toDigits 10 n
  let top := power + cs.length - 1
  if layout.positionalFrom ≤ top ∧ top < layout.positionalBelow then positional cs power
  else scientific layout cs top

end LuaExpander.Shortest
