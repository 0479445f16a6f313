import LuaExpander.Token.Lexer

/-! The tokens still to come. Those that were looked at or put back come first; the others have not
been drawn, and a text is lexed only as far as its tokens have been. A source that cannot be lexed
to its end fails once, when the first token is wanted that it does not have; after that it is at its
end. -/
namespace LuaExpander

def Token.numbered (numbering place : Nat) (t : Token) : Token :=
  match t.serial with
  | some _ => t
  | none => { t with serial := some (numbering, place) }

def Tokens.numberAt (numbering place : Nat) : List Token → List Token
  | [] => []
  | t :: ts => t.numbered numbering place :: numberAt numbering (place + 1) ts

def Tokens.numberEach (numbering place : Nat) : List (List Token) → List (List Token)
  | [] => []
  | ts :: rest => numberAt numbering place ts :: numberEach numbering (place + ts.length) rest

/- What has not been drawn. The tokens of a text get their numbers when they are drawn, from the
numbering and the place of the next one. -/
inductive Unread where
  | tokens (ts : List Token) (failure : Option Error)
  | text (left : Lexing) (numbering : Option (Nat × Nat))
  -- The text is at its end or has failed there.
  | ended (line : Nat)
  deriving DecidableEq, Repr

namespace Unread

def ofText (text : String) : Unread := .text ⟨text.toList, 1⟩ none

def numbered (numbering : Option (Nat × Nat)) (t : Token) : Token :=
  match numbering with
  | some (numbering, place) => t.numbered numbering place
  | none => t

def later (numbering : Option (Nat × Nat)) : Option (Nat × Nat) :=
  numbering.map fun (numbering, place) => (numbering, place + 1)

def draw : Unread → Except Error (Option Token) × Unread
  | .tokens (t :: ts) failure => (.ok (some t), .tokens ts failure)
  | .tokens [] (some e) => (.error e, .tokens [] none)
  | .tokens [] none => (.ok none, .tokens [] none)
  | .text left numbering =>
    match left.next with
    | .ok (some (t, left)) => (.ok (some (numbered numbering t)), .text left (later numbering))
    | .ok none =>
      (.ok (some (numbered numbering (.endOfInput (some left.line)))), .ended left.line)
    | .error e => (.error e, .ended left.line)
  | .ended line => (.ok none, .ended line)

def number (numbering place : Nat) : Unread → Unread
  | .tokens ts failure => .tokens (Tokens.numberAt numbering place ts) failure
  | .text left none => .text left (some (numbering, place))
  | .text left (some given) => .text left (some given)
  | .ended line => .ended line

def lexing : Unread → Lexing
  | .tokens _ _ => ⟨[], 1⟩
  | .text left _ => left
  | .ended line => ⟨[], line⟩

/- The line that the lexer has reached; tokens that come without a text leave it where it was. -/
def lineReached (before : Nat) : Unread → Nat
  | .tokens _ _ => before
  | .text left _ => left.line
  | .ended line => line

/- So many draws are enough to come to the end. -/
def size : Unread → Nat
  | .tokens ts _ => ts.length + 1
  | .text left _ => left.rest.length + 2
  | .ended _ => 1

def ahead : Unread → List Token
  | .tokens ts _ => ts
  | .text left none => (Lexer.lexFrom 0 left.line left.rest).stream
  | .text left (some (numbering, place)) =>
    Tokens.numberAt numbering place (Lexer.lexFrom 0 left.line left.rest).stream
  | .ended _ => []

def failure : Unread → Option Error
  | .tokens _ failure => failure
  | .text left _ => (Lexer.lexFrom 0 left.line left.rest).failure
  | .ended _ => none

end Unread

structure Cursor where
  pending : List Token
  unread : Unread
  deriving DecidableEq, Repr

namespace Cursor

def empty : Cursor := ⟨[], .tokens [] none⟩

def ofTokens (ts : List Token) : Cursor := ⟨[], .tokens ts none⟩

def ofText (text : String) : Cursor := ⟨[], .ofText text⟩

def ahead (c : Cursor) : List Token := c.pending ++ c.unread.ahead

def failure (c : Cursor) : Option Error := c.unread.failure

def size (c : Cursor) : Nat := c.pending.length + c.unread.size

def next (c : Cursor) : Except Error (Option Token) × Cursor :=
  match c.pending with
  | t :: pending => (.ok (some t), { c with pending })
  | [] =>
    let (answer, unread) := c.unread.draw
    (answer, { c with unread })

def prepend (ts : List Token) (c : Cursor) : Cursor := { c with pending := ts ++ c.pending }

def putBack (t : Token) (c : Cursor) : Cursor := c.prepend [t]

def peek (c : Cursor) : Except Error (Option Token) × Cursor :=
  match c.next with
  | (.ok (some t), c) => (.ok (some t), c.putBack t)
  | other => other

def drop : Nat → Cursor → Cursor
  | 0, c => c
  | n + 1, c =>
    match c.next with
    | (.ok (some _), c) => c.drop n
    | _ => c

/- Takes tokens as long as `more` gives a state for the next one; the first that it does not take is
not drawn. -/
def takeFrom {σ : Type} (more : σ → Token → Option σ) : Nat → σ → Cursor → List Token × Cursor
  | 0, _, c => ([], c)
  | turns + 1, state, c =>
    match c.next with
    | (.ok (some t), rest) =>
      match more state t with
      | some state =>
        let (ts, rest) := takeFrom more turns state rest
        (t :: ts, rest)
      | none => ([], c)
    | _ => ([], c)

def takeWhile (p : Token → Bool) (c : Cursor) : List Token × Cursor :=
  takeFrom (fun _ t => if p t then some () else none) c.size () c

def restFrom : Nat → Cursor → Except Error (List Token) × Cursor
  | 0, c => (.ok [], c)
  | turns + 1, c =>
    match c.next with
    | (.ok (some t), c) =>
      let (answer, c) := restFrom turns c
      (answer.map (t :: ·), c)
    | (.ok none, c) => (.ok [], c)
    | (.error e, c) => (.error e, c)

def rest (c : Cursor) : Except Error (List Token) × Cursor := c.restFrom c.size

def describe (c : Cursor) : String := "<TokIter " ++ toString c.pending.length ++ " pending>"

def number (fresh : Nat) (c : Cursor) : Cursor × Nat :=
  ({ pending := Tokens.numberAt fresh 0 c.pending
     unread := c.unread.number fresh c.pending.length }, fresh + 1)

end Cursor

/- A lexer gives out the tokens of its main text as they are wanted. Other texts are lexed meanwhile
on clones, which are kept for the next one. -/
structure Lexer where
  main : Unread
  clones : List Lexing := []
  deriving DecidableEq, Repr

namespace Lexer

def next (l : Lexer) : Except Error (Option Token) × Lexer :=
  let (answer, main) := l.main.draw
  (answer, { l with main })

def parse (text : String) (line : Line) (l : Lexer) : Except Error (List Token) × Lexer :=
  let (clone, others) := match l.clones with
    | clone :: others => (clone, others)
    | [] => (l.main.lexing, [])
  let (answer, clone) := (clone.input text).all
  (answer.map (Tokens.onLine line), { l with clones := clone :: others })

/- What can be asked of a lexer. A new main text takes the place of the one before. -/
inductive Op where
  | tokens (text : String)
  | next
  | parse (text : String) (line : Line)
  deriving DecidableEq, Repr

inductive Answer where
  | begun
  | token (t : Option Token)
  | parsed (ts : List Token)
  deriving DecidableEq, Repr

def perform (l : Lexer) : Op → Except Error Answer × Lexer
  | .tokens text => (.ok .begun, { l with main := .ofText text })
  | .next => (l.next.1.map .token, l.next.2)
  | .parse text line => ((l.parse text line).1.map .parsed, (l.parse text line).2)

end Lexer

end LuaExpander
