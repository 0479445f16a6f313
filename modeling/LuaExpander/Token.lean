import LuaExpander.Text.Quoted

/-! Tokens of Lua source. Blanks and comments are tokens like all others, so that the values of the
tokens of a text, put together, are the text. -/
namespace LuaExpander

inductive Kind where
  | iden | keyword | op | string | number | space | comment | eof
  deriving DecidableEq, Repr

def Kind.word : Kind → String
  | .iden => "iden"
  | .keyword => "keyword"
  | .op => "op"
  | .string => "string"
  | .number => "number"
  | .space => "space"
  | .comment => "comment"
  | .eof => "eof"

def Kind.name : Kind → String
  | .iden => "IDEN"
  | .keyword => "KEYWORD"
  | .op => "OP"
  | .string => "STRING"
  | .number => "NUMBER"
  | .space => "SPACE"
  | .comment => "COMMENT"
  | .eof => "EOF"

def Kind.isBlank : Kind → Bool
  | .space | .comment => true
  | _ => false

def Kind.isSolid : Kind → Bool
  | .space | .comment | .eof => false
  | _ => true

abbrev Line := Option Int

structure Token where
  kind : Kind
  value : String
  line : Line := some 0
  mark : Option String := none
  -- Given to a token before a program may look at it: the numbering and the place in it. Two tokens
  -- with one number are one and the same piece of the input.
  serial : Option (Nat × Nat) := none
  deriving DecidableEq, Repr

def Line.shown? : Line → Option Int
  | some n => if n = 0 then none else some n
  | none => none

def Line.orElse (first second : Line) : Line :=
  if (Line.shown? first).isSome then first else second

namespace Token

def fresh (t : Token) : Token := { t with serial := none }

def markedBy (t : Token) (name : String) (line : Line) : Token :=
  { t with mark := some name, line := line, serial := none }

def endOfInput (line : Line) : Token := ⟨.eof, "", line, none, none⟩

def describe (t : Token) : String :=
  let line := match Line.shown? t.line with
    | some n => " @" ++ toString n
    | none => ""
  let mark := match t.mark with
    | some name => if name.isEmpty then "" else " <- " ++ name
    | none => ""
  "<Tok " ++ t.kind.name ++ ":" ++ Text.quoted t.value ++ line ++ mark ++ ">"

end Token

def reservedWords : List String :=
  ["and", "break", "do", "else", "elseif", "end", "false", "for", "function", "goto", "if", "in",
   "local", "nil", "not", "or", "repeat", "return", "then", "true", "until", "while"]

/- Words that begin a block. A loop's block begins with its `do`, not with `while` or `for`. -/
def blockOpeners : List String := ["do", "if", "function", "repeat"]

def blockClosers : List String := ["end", "until"]

def Token.opensBlock (t : Token) : Bool := t.kind == .keyword && t.value ∈ blockOpeners

def Token.closesBlock (t : Token) : Bool := t.kind == .keyword && t.value ∈ blockClosers

end LuaExpander
