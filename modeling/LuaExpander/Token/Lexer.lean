import LuaExpander.Token.Lexeme

/-! The tokens of a text. A text is lexed up to its end or up to the first lexeme that is not
finished; the tokens before it are there all the same. They are found one by one, as they are
wanted, or all at once. -/
namespace LuaExpander

/- A text that is being lexed: what is left of it, and the line where that begins. -/
structure Lexing where
  rest : List Char
  line : Nat
  deriving DecidableEq, Repr

namespace Lexing

def input (text : String) (l : Lexing) : Lexing := { l with rest := text.toList, line := 1 }

def next (l : Lexing) : Except Error (Option (Token × Lexing)) :=
  match l.rest with
  | [] => .ok none
  | c :: cs =>
    match Lexeme.first (c :: cs) with
    | .lexeme kind text rest =>
      let token : Token := { kind, value := String.ofList text, line := some l.line }
      .ok (some (token, { l with rest, line := l.line + text.count '\n' }))
    | .unfinished cause => .error ⟨cause, some l.line, none⟩

/- Every token takes a character at least, so that their number bounds the turns. -/
def allFrom : Nat → Lexing → Except Error (List Token) × Lexing
  | 0, l => (.ok [], l)
  | turns + 1, l =>
    match l.next with
    | .ok none => (.ok [], l)
    | .ok (some (t, l)) =>
      let (answer, l) := allFrom turns l
      (answer.map (t :: ·), l)
    | .error e => (.error e, l)

def all (l : Lexing) : Except Error (List Token) × Lexing := l.allFrom l.rest.length

end Lexing

/- A lexed text: its tokens, the error that stopped the lexing and the line reached. -/
structure Lexed where
  tokens : List Token
  failure : Option Error
  lastLine : Nat
  deriving DecidableEq, Repr

namespace Lexer

/- The first `skip` characters belong to a lexeme that has been given already. -/
def lexFrom (skip line : Nat) : List Char → Lexed
  | [] => ⟨[], none, line⟩
  | c :: cs =>
    match skip with
    | skip + 1 => lexFrom skip line cs
    | 0 =>
      match Lexeme.first (c :: cs) with
      | .lexeme kind text _ =>
        let after := lexFrom (text.length - 1) (line + text.count '\n') cs
        let token : Token := { kind, value := String.ofList text, line := some line }
        { after with tokens := token :: after.tokens }
      | .unfinished cause => ⟨[], some ⟨cause, some line, none⟩, line⟩

def lex (text : String) : Lexed := lexFrom 0 1 text.toList

end Lexer

/- A text that fails never reaches the token for the end of the input. -/
def Lexed.stream (l : Lexed) : List Token :=
  match l.failure with
  | none => l.tokens ++ [Token.endOfInput (some l.lastLine)]
  | some _ => l.tokens

/- Tokens are given the line, if that says something. -/
def Tokens.onLine (line : Line) (ts : List Token) : List Token :=
  if (Line.shown? line).isSome then ts.map fun t => { t with line } else ts

/- All tokens of a text, none for its end. -/
def parseTokens (text : String) (line : Line := some 0) : Except Error (List Token) :=
  let l := Lexer.lex text
  match l.failure with
  | some e => .error e
  | none => .ok (Tokens.onLine line l.tokens)

end LuaExpander
