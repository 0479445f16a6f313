import LuaExpander.Value

/-! Operations on values: sums, comparisons, lengths and items. Truth values count as 0 and 1, and
whole numbers compare with floats exactly. An operation on values that it is not for is a fault. -/
namespace LuaExpander

namespace Number

def toDouble : Number → Except Fault Double
  | .int n =>
    match Double.ofBinary (n < 0) n.natAbs 0 with
    | .infinite _ => .error .integerTooLarge
    | d => .ok d
  | .float d => .ok d

def add : Number → Number → Except Fault Number
  | .int m, .int n => .ok (.int (m + n))
  | m, n => do return .float ((← m.toDouble).add (← n.toDouble))

/- An integer in the units that finite floats are counted in. -/
def unitsOfInt (n : Int) : Int :=
  let unit := Nat.pow 2 (-Double.leastExponent).toNat
  n * unit

def intLess (n : Int) : Double → Bool
  | .nan => false
  | .infinite negative => !negative
  | d => unitsOfInt n < d.units

def lessInt : Double → Int → Bool
  | .nan, _ => false
  | .infinite negative, _ => negative
  | d, n => d.units < unitsOfInt n

def less : Number → Number → Bool
  | .int m, .int n => m < n
  | .int m, .float d => intLess m d
  | .float d, .int n => lessInt d n
  | .float d, .float e => d.lt e

def isInt (d : Double) (n : Int) : Bool :=
  match d with
  | .finite _ _ _ => d.units == unitsOfInt n
  | _ => false

def equal : Number → Number → Bool
  | .int m, .int n => m == n
  | .int m, .float d => isInt d m
  | .float d, .int n => isInt d n
  | .float d, .float e => d.equal e

end Number

namespace Value

def number? : Value → Option Number
  | number n => some n
  | flag b => some (.int (if b then 1 else 0))
  | _ => none

def items? : Value → Option (List Value)
  | list vs => some vs
  | tokens ts => some (ts.map token)
  | text s => some (s.toList.map fun c => text (String.singleton c))
  | _ => none

def items (v : Value) : Except Fault (List Value) :=
  match v.items? with
  | some vs => .ok vs
  | none => .error (.notIterable v.className)

def itemTokens (v : Value) : Except Fault (List Token) := do
  match allTokens? (← v.items) with
  | some ts => return ts
  | none => throw (.lacking v.className "value")

def add (a b : Value) : Except Fault Value :=
  match a, b with
  | text s, text t => .ok (text (s ++ t))
  | list vs, list ws => .ok (list (vs ++ ws))
  | tokens _, _ | list _, tokens _ => do return tokens ((← a.itemTokens) ++ (← b.itemTokens))
  | text _, _ | list _, _ => .error (.notJoinable a.className b.className)
  | _, _ =>
    match a.number?, b.number? with
    | some m, some n => number <$> m.add n
    | _, _ => .error (.notAddable a.className b.className)

def looks (ts : List Token) : List Token := ts.map Token.fresh

/- Equality of values that are no lists. Tokens are equal if they look the same, wherever they come
from. -/
def equalPlain : Value → Value → Bool
  | nothing, nothing => true
  | text s, text t => s == t
  | token t, token u => t.fresh == u.fresh
  | tokens ts, tokens us => looks ts == looks us
  | builder b, builder c => b == c
  | a, b =>
    match a.number?, b.number? with
    | some m, some n => m.equal n
    | _, _ => false

mutual

def equal : Value → Value → Bool
  | list vs, list ws => equalAll vs ws
  | list vs, tokens ts => (allTokens? vs).map looks == some (looks ts)
  | tokens ts, list vs => (allTokens? vs).map looks == some (looks ts)
  | a, b => equalPlain a b

def equalAll : List Value → List Value → Bool
  | [], [] => true
  | v :: vs, w :: ws => equal v w && equalAll vs ws
  | _, _ => false

end

def greater (a b : Value) : Except Fault Bool :=
  match a, b with
  | text s, text t => .ok (t < s)
  | _, _ =>
    match a.number?, b.number? with
    | some m, some n => .ok (n.less m)
    | _, _ => .error (.notComparable ">" a.className b.className)

def length (v : Value) : Except Fault Nat :=
  match v.items? with
  | some vs => .ok vs.length
  | none => .error (.noLength v.className)

def rangeWord : Value → String
  | text _ => "string"
  | _ => "list"

def item (v : Value) (index : Int) : Except Fault Value :=
  match v.items? with
  | none => .error (.noItems v.className)
  | some vs =>
    let place := if index < 0 then index + vs.length else index
    let found := if place < 0 then none else vs[place.toNat]?
    match found with
    | some w => .ok w
    | none => .error (.noSuchItem v.rangeWord)

end Value

end LuaExpander
