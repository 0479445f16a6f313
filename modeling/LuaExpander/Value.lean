import LuaExpander.Builder
import LuaExpander.Reader
import LuaExpander.Stack
import LuaExpander.Token.Lexer

/-! Values that programs answer, pass on and publish, and the tokens that a value stands for. -/
namespace LuaExpander

inductive Value where
  | nothing
  | flag (b : Bool)
  | number (n : Number)
  | text (s : String)
  | token (t : Token)
  | tokens (ts : List Token)
  | builder (b : Builder)
  | list (vs : List Value)
  deriving Repr

namespace Value

def className : Value → String
  | nothing => "NoneType"
  | flag _ => "bool"
  | number (.int _) => "int"
  | number (.float _) => "float"
  | text _ => "str"
  | token _ => "Tok"
  | tokens _ => "Tokens"
  | builder _ => "Putter"
  | list _ => "list"

mutual

def describe : Value → Except Fault String
  | nothing => .ok "None"
  | flag b => .ok (if b then "True" else "False")
  | number n => n.text
  | text s => .ok (Text.quoted s)
  | token t => .ok t.describe
  | tokens ts => .ok (Tokens.describe ts)
  | builder b => .ok b.describe
  | list vs => do return "[" ++ String.intercalate ", " (← describeAll vs) ++ "]"

def describeAll : List Value → Except Fault (List String)
  | [] => .ok []
  | v :: vs => do
    let first ← describe v
    return first :: (← describeAll vs)

end

def plain : Value → Except Fault String
  | text s => .ok s
  | token t => .ok t.value
  | tokens ts => .ok (Tokens.text ts)
  | builder b => .ok b.text
  | v => v.describe

def isFalsy : Value → Bool
  | nothing => true
  | flag b => !b
  | number n => n.isZero
  | text s => s.isEmpty
  | tokens ts => ts.isEmpty
  | list vs => vs.isEmpty
  | token _ | builder _ => false

def allTokens? : List Value → Option (List Token)
  | [] => some []
  | token t :: vs => (allTokens? vs).map (t :: ·)
  | _ :: _ => none

def lexed (s : String) (line : Line) : Except Failure (List Token) :=
  match parseTokens s line with
  | .ok ts => .ok ts
  | .error e => .error e

def noTokens (v : Value) : Failure :=
  match v.describe with
  | .ok s => .fault (.notTokens v.className s)
  | .error f => .fault f

/- The tokens that a value stands for. Texts and numbers are lexed, on the given line if that says
something; nothing stands for no tokens. -/
def toTokens (v : Value) (line : Line := some 0) : Except Failure (List Token) :=
  match v with
  | nothing => .ok []
  | tokens ts => .ok ts
  | builder b => .ok b.toTokens
  | token t => .ok [t]
  | text s => lexed s line
  | number n =>
    match n.text with
    | .ok s => lexed s line
    | .error f => .error f
  | list vs =>
    match allTokens? vs with
    | some ts => .ok ts
    | none => .error (noTokens v)
  | flag _ => .error (noTokens v)

/- The top of a stack, unless that counts as no. -/
def topOf (s : Stack Value) (default : Value) : Value :=
  match s.top? with
  | some v => if v.isFalsy then default else v
  | none => default

end Value

def Reader.Op.toValue : (op : Reader.Op) → op.Answer → Value
  | .peek, t | .next, t | .skipBlank, t => .token t
  | .name, s | .string, s | .expecting _, s => .text s
  | .number, n => .number n
  | .names _, ns => .list (ns.map .text)
  | .list _, args => .list (args.map .tokens)
  | .upto _, ts | .line, ts | .block, ts => .tokens ts

end LuaExpander
