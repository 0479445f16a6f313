import LuaExpander.Token.Sequence

/-! Building a replacement, token by token. A token gets the kind it is put as and nothing is
checked. -/
namespace LuaExpander

structure Builder where
  built : Array Token := #[]
  deriving DecidableEq, Repr

namespace Builder

def empty : Builder := ⟨#[]⟩

def ofTokens (ts : List Token) : Builder := ⟨ts.toArray⟩

def toTokens (b : Builder) : List Token := b.built.toList

def token (kind : Kind) (value : String) (b : Builder) : Builder := ⟨b.built.push { kind, value }⟩

def iden (name : String) : Builder → Builder := token .iden name

def keyword (word : String) : Builder → Builder := token .keyword word

def op (value : String) : Builder → Builder := token .op value

def string (contents : String) : Builder → Builder := token .string (Literal.quote contents)

/- A number, negative ones as a single token too. -/
def number (n : Number) (b : Builder) : Except Fault Builder := do
  return b.token .number (← n.text)

def space (blank : String := " ") : Builder → Builder := token .space blank

def tokens (ts : List Token) (b : Builder) : Builder := ⟨b.built ++ ts.toArray⟩

def names (ns : List String) (b : Builder) : Builder :=
  match ns with
  | [] => b
  | n :: ns => ns.foldl (fun b n => (b.op ",").iden n) (b.iden n)

def text (b : Builder) : String := Tokens.text b.toTokens

def describe (b : Builder) : String := "<Putter " ++ Tokens.describe b.toTokens ++ ">"

end Builder

end LuaExpander
