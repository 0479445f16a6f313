import LuaExpander.Number
import LuaExpander.Token.Lexeme
import LuaExpander.Text.Lowercase
import LuaExpander.Text.Word

/-! The number that a text stands for. Any text is looked at, not only literals: there may be blanks
around it, a sign, single underscores between digits and decimal digits of any script. -/
namespace LuaExpander.Numeral

def digitValue (c : Char) : Nat :=
  if c.isDigit then c.toNat - '0'.toNat
  else if 'a' ≤ c ∧ c ≤ 'f' then c.toNat - 'a'.toNat + 10
  else if 'A' ≤ c ∧ c ≤ 'F' then c.toNat - 'A'.toNat + 10
  else 0

def positionalValue (base : Nat) (digits : List Char) : Nat :=
  digits.foldl (fun n c => base * n + digitValue c) 0

def isPlainBlank (c : Char) : Bool := c == ' ' || (9 ≤ c.toNat && c.toNat ≤ 13)

def trimPlain (cs : List Char) : List Char :=
  ((cs.dropWhile isPlainBlank).reverse.dropWhile isPlainBlank).reverse

/- Digits and blanks of other scripts as plain ones; a character that is neither stays out of every
numeral. -/
def plainChar (c : Char) : Char :=
  if c.toNat < 0x80 then c
  else if Text.isBlank c then ' '
  else match Text.decimalValue? c with
    | some d => Nat.digitChar d
    | none => '?'

/- Digits with single underscores between them, as digits alone. `after` tells that a digit has just
been read. -/
def ungroup? (digit : Char → Bool) (after : Bool) : List Char → Option (List Char)
  | [] => if after then some [] else none
  | c :: cs =>
    if c = '_' then (if after then ungroup? digit false cs else none)
    else if digit c then (ungroup? digit true cs).map (c :: ·)
    else none

def signed (negative : Bool) (n : Nat) : Int := if negative then -(n : Int) else n

def integer? (cs : List Char) : Option Int := do
  let (mark, digits) := Lexeme.sign (trimPlain (cs.map plainChar))
  let digits ← ungroup? Char.isDigit false digits
  if digits.length ≤ Number.digitLimit then
    some (signed (mark = ['-']) (positionalValue 10 digits))
  else none

def hexInteger? (cs : List Char) : Option Nat :=
  let digits := (trimPlain (cs.map plainChar)).drop 2
  let digits := match digits with
    | '_' :: rest => rest
    | _ => digits
  (ungroup? Lexeme.isHexDigit false digits).map (positionalValue 16)

def ungroupAll? (before : Char) : List Char → Option (List Char)
  | [] => if before = '_' then none else some []
  | c :: cs =>
    if c = '_' then (if before.isDigit then ungroupAll? c cs else none)
    else if before = '_' ∧ ¬ c.isDigit then none
    else (ungroupAll? c cs).map (c :: ·)

def scaled (base : Nat) (mantissa : List Char) : Nat × Nat :=
  let whole := mantissa.takeWhile (· ≠ '.')
  let part := (mantissa.dropWhile (· ≠ '.')).drop 1
  (positionalValue base (whole ++ part), part.length)

def exponentValue (exponent : List Char) : Int :=
  let (mark, digits) := Lexeme.sign (exponent.drop 1)
  signed (mark = ['-']) (positionalValue 10 digits)

def complete? (digit letter : Char → Bool) (cs : List Char) : Option (List Char × List Char) := do
  let (mantissa, rest) ← Lexeme.mantissa? digit cs
  let (exponent, rest) := Lexeme.exponent letter rest
  if rest.isEmpty then some (mantissa, exponent) else none

def decimalFloat? (negative : Bool) (cs : List Char) : Option Double := do
  let (mantissa, exponent) ← complete? Char.isDigit (· == 'e') cs
  let (n, places) := scaled 10 mantissa
  some (.ofDecimal negative n (exponentValue exponent - places))

def float? (cs : List Char) : Option Double := do
  let cs ← ungroupAll? ' ' (trimPlain (cs.map plainChar))
  let (mark, cs) := Lexeme.sign cs
  let negative := mark = ['-']
  if cs = "inf".toList ∨ cs = "infinity".toList then some (.infinite negative)
  else if cs = "nan".toList then some .nan
  else decimalFloat? negative cs

def isBrokenExponent (exponent rest : List Char) : Bool := exponent.isEmpty && rest.head? == some 'p'

/- A hexadecimal float, which stands after `0x`. One that is too large is so whatever follows it. -/
def hexFloat (cs : List Char) : Except Fault Double :=
  match Lexeme.mantissa? Lexeme.isHexDigit ((trimPlain cs).drop 2) with
  | none => .error .notAHexFloat
  | some (mantissa, rest) =>
    let (exponent, rest) := Lexeme.exponent (· == 'p') rest
    let (n, places) := scaled 16 mantissa
    if isBrokenExponent exponent rest then .error .notAHexFloat
    else match Double.ofBinary false n (exponentValue exponent - 4 * places) with
      | .infinite _ => .error .hexFloatTooLarge
      | d => if rest.isEmpty then .ok d else .error .notAHexFloat

def readHex (s : String) : Except Fault Number :=
  let cs := s.toList
  if '.' ∈ cs ∨ 'p' ∈ cs then Number.float <$> hexFloat cs
  else match hexInteger? cs with
    | some n => .ok (.int n)
    | none => .error (.notAHexInteger s)

def readDecimal (s : String) : Except Fault Number :=
  match integer? s.toList with
  | some n => .ok (.int n)
  | none =>
    match float? s.toList with
    | some d => .ok (.float d)
    | none => .error (.notANumber s)

def read (text : String) : Except Fault Number :=
  let s := Text.lower text
  match s.toList with
  | '0' :: 'x' :: _ => readHex s
  | _ => readDecimal s

end LuaExpander.Numeral
