import LuaExpander.Error
import LuaExpander.Numeral.Shortest

/-! Numbers of literals: integers without bounds and double precision floats. -/
namespace LuaExpander

inductive Number where
  | int (n : Int)
  | float (d : Double)
  deriving DecidableEq, Repr

/- Floats are written out from 0.0001 to below 10^16; elsewhere they have an exponent of two digits
or more. -/
def floatLayout : Shortest.Layout := ⟨-4, 16, 2⟩

def Double.text : Double → String
  | .nan => "nan"
  | .infinite negative => if negative then "-inf" else "inf"
  | .finite negative m e =>
    let digits := if m = 0 then ['0', '.', '0'] else Shortest.render floatLayout m e
    String.ofList (if negative then '-' :: digits else digits)

namespace Number

def digitLimit : Nat := 4300

def integerText (n : Int) : String := toString n

def text : Number → Except Fault String
  | .int n =>
    if n.natAbs < Nat.pow 10 digitLimit then .ok (integerText n) else .error .tooManyDigits
  | .float d => .ok d.text

def neg : Number → Number
  | .int n => .int (-n)
  | .float d => .float d.neg

def isZero : Number → Bool
  | .int n => n == 0
  | .float d => d.isZero

end Number

end LuaExpander
