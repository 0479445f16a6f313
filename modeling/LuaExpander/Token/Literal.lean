import LuaExpander.Token.Lexeme
import LuaExpander.Numeral.Read

/-! String literals of Lua: writing a text as a literal, and the text that a literal stands for. -/
namespace LuaExpander.Literal

def decimalEscape (n : Nat) : List Char :=
  '\\' :: [Nat.digitChar (n / 100 % 10), Nat.digitChar (n / 10 % 10), Nat.digitChar (n % 10)]

def encodeChar (c : Char) : List Char :=
  if c = '\\' ∨ c = '"' then ['\\', c]
  else if c = '\n' then ['\\', 'n']
  else if c = '\r' then ['\\', 'r']
  else if c.toNat < 32 ∧ c ≠ '\t' then decimalEscape c.toNat
  else [c]

def quote (s : String) : String :=
  String.ofList ('"' :: s.toList.flatMap encodeChar ++ ['"'])

def namedEscape (c : Char) : Char :=
  match c with
  | 'a' => '\x07'
  | 'b' => '\x08'
  | 'f' => '\x0c'
  | 'n' => '\n'
  | 'r' => '\r'
  | 't' => '\t'
  | 'v' => '\x0b'
  | c => c

/- Texts here have no surrogates: the codes from 0xd800 to 0xdfff are left out of the model and come
out as the null character. -/
def character (code : Nat) : Except Fault Char :=
  if code ≥ Nat.pow 2 31 then .error .characterTooLarge
  else if code ≥ 0x110000 then .error .noSuchCharacter
  else .ok (Char.ofNat code)

inductive Escape where
  | code (n : Nat)
  | char (c : Char)
  | gap
  deriving DecidableEq, Repr

/- The escape that begins with `c` after the backslash, and how many more characters it takes. An
escape that is not complete stands for its letter. -/
def escape (c : Char) (cs : List Char) : Escape × Nat :=
  if c.isDigit then
    let digits := c :: (cs.takeWhile Char.isDigit).take 2
    (.code (Numeral.positionalValue 10 digits), digits.length - 1)
  else
    match c, cs with
    | 'x', h :: l :: _ =>
      if Lexeme.isHexDigit h && Lexeme.isHexDigit l then
        (.code (Numeral.positionalValue 16 [h, l]), 2)
      else (.char 'x', 0)
    | 'u', '{' :: rest =>
      let digits := rest.takeWhile Lexeme.isHexDigit
      if !digits.isEmpty && (rest.dropWhile Lexeme.isHexDigit).head? == some '}' then
        (.code (Numeral.positionalValue 16 digits), digits.length + 2)
      else (.char 'u', 0)
    | 'z', cs => (.gap, (cs.takeWhile Text.isBlank).length)
    | c, _ => (.char (namedEscape c), 0)

def Escape.text : Escape → Except Fault (List Char)
  | .code n => do return [← character n]
  | .char c => .ok [c]
  | .gap => .ok []

/- The inside of a literal with its escapes resolved. The first `skip` characters belong to an
escape that has been resolved already. A backslash at the very end stays. -/
def unescape (skip : Nat) : List Char → Except Fault (List Char)
  | [] => .ok []
  | c :: cs =>
    match skip, c, cs with
    | skip + 1, _, cs => unescape skip cs
    | 0, '\\', next :: rest => do
      let (e, more) := escape next rest
      let here ← e.text
      let after ← unescape (more + 1) (next :: rest)
      return here ++ after
    | 0, c, cs => do return c :: (← unescape 0 cs)

def dropLineEnd : List Char → List Char
  | '\r' :: '\n' :: cs => cs
  | '\n' :: cs => cs
  | cs => cs

def inner (front back : Nat) (cs : List Char) : List Char := (cs.take (cs.length - back)).drop front

/- The text that a literal stands for. Nothing is escaped between long brackets, and a line end
directly after the opening one is not part of the text. -/
def unquote (value : String) : Except Fault String :=
  let cs := value.toList
  match Lexeme.longLevel? cs with
  | some level => .ok (String.ofList (dropLineEnd (inner (level + 2) (level + 2) cs)))
  | none => String.ofList <$> unescape 0 (inner 1 1 cs)

def isName (s : String) : Bool :=
  match s.toList with
  | [] => false
  | c :: cs => Lexeme.isNameStart c && cs.all Lexeme.isNameChar

end LuaExpander.Literal
