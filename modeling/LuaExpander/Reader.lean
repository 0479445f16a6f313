import LuaExpander.Cursor
import LuaExpander.Token.Sequence

/-! Structured reading of the tokens still to come. A reader remembers every token that it took, and
never takes the end of the input. What it took stays taken when an operation fails. -/
namespace LuaExpander

structure Reader where
  cursor : Cursor
  origin : Option Token := none
  taken : Array Token := #[]
  deriving DecidableEq, Repr

abbrev ReaderM := ExceptT Failure (StateM Reader)

namespace Reader

def took (ts : List Token) (r : Reader) : Reader :=
  { r with cursor := r.cursor.drop ts.length, taken := r.taken ++ ts.toArray }

def takeWhile (p : Token → Bool) : ReaderM (List Token) := do
  let r ← get
  let (ts, cursor) := r.cursor.takeWhile p
  set { r with cursor, taken := r.taken ++ ts.toArray }
  return ts

def endToken (r : Reader) : Token := Token.endOfInput (r.origin.bind (·.line))

def peek : ReaderM Token := do
  let r ← get
  let (answer, cursor) := r.cursor.peek
  set { r with cursor }
  match answer with
  | .ok (some t) => return t
  | .ok none => return r.endToken
  | .error e => throw (.error e)

def next : ReaderM Token := do
  let t ← peek
  if t.kind ≠ .eof then modify (·.took [t])
  return t

def skipBlank : ReaderM Token := do
  let _ ← takeWhile (·.kind.isBlank)
  peek

def ofKind (kind : Kind) (wanted : String) : ReaderM Token := do
  let _ ← skipBlank
  let t ← next
  if t.kind = kind then return t
  throw (.error (.atToken (.wrongToken wanted t.value) t))

def name : ReaderM String := do
  return (← ofKind .iden "a name").value

def number : ReaderM Number := do
  Tokens.readNumber (← ofKind .number "a number")

def string : ReaderM String := do
  Tokens.readString (← ofKind .string "a string")

def expecting (expected : Expected) : ReaderM String := do
  let _ ← skipBlank
  let t ← next
  if expected.meets t then return t.value
  throw (.error (.atToken (.missingToken expected t.value) t))

def missing (stop : String) (last : Token) : ReaderM α := do
  throw (.error (.atToken (.missingStop stop) ((← get).origin.getD last)))

def more (stop : String) : ReaderM Token := do
  let t ← peek
  if t.kind = .eof then missing stop t else return t

/- The last of the names found so far comes first. Each turn takes a name, so that the number of
tokens to come bounds the turns. -/
def namesFrom (stop : String) : Nat → List String → ReaderM (List String)
  | 0, names => return names.reverse
  | turns + 1, names => do
    let names := (← name) :: names
    if (← skipBlank).value = stop then return names.reverse
    let _ ← more stop
    let _ ← expecting (.text ",")
    namesFrom stop turns names

def names (stop : String) : ReaderM (List String) := do
  if (← skipBlank).value = stop then return []
  namesFrom stop (← get).cursor.size []

/- What is to be done after a token: go on in another state, or end with a result. -/
inductive Turn (σ α : Type) where
  | more (state : σ)
  | done (result : α)

def scanFrom {σ : Type} (stop : String) (turn : σ → Token → Turn σ α) : Nat → σ → ReaderM α
  | 0, _ => do missing stop (← peek)
  | turns + 1, state => do
    let t ← more stop
    modify (·.took [t])
    match turn state t with
    | .more state => scanFrom stop turn turns state
    | .done result => return result

def scan {σ : Type} (stop : String) (turn : σ → Token → Turn σ α) (state : σ) : ReaderM α := do
  scanFrom stop turn (← get).cursor.size state

def closerOf? : String → Option String
  | "(" => some ")"
  | "[" => some "]"
  | "\x7b" => some "\x7d"
  | _ => none

/- The brackets to be closed, the innermost first, the tokens of the current argument, the last one
first, and the arguments before it. -/
structure Listing where
  closers : List String := []
  arg : List Token := []
  args : List (List Token) := []

def Listing.complete (s : Listing) : List (List Token) := s.args ++ [Tokens.strip s.arg.reverse]

def Listing.turn (stop : String) (s : Listing) (t : Token) : Turn Listing (List (List Token)) :=
  let further (closers : List String) := Turn.more { s with closers, arg := t :: s.arg }
  if t.kind = .op then
    if s.closers.isEmpty ∧ t.value = stop then .done s.complete
    else if s.closers.isEmpty ∧ t.value = "," then .more { args := s.complete }
    else match closerOf? t.value with
      | some closer => further (closer :: s.closers)
      | none =>
        if s.closers.head? = some t.value then further s.closers.tail else further s.closers
  else further s.closers

/- Arguments between commas outside of brackets, through `stop`, each stripped. Nothing but blanks
before `stop` is one empty argument. -/
def list (stop : String) : ReaderM (List (List Token)) := scan stop (Listing.turn stop) {}

def upto (stop : String) : ReaderM (List Token) := do
  let ts ← takeWhile fun t => t.kind ≠ .eof && t.value ≠ stop
  let _ ← more stop
  return ts

/- The blank or comment that holds the end of the line is not taken. -/
def line : ReaderM (List Token) := do
  let ts ← takeWhile fun t => !(t.kind = .eof || (t.kind.isBlank && '\n' ∈ t.value.toList))
  let _ ← peek
  return ts

structure Enclosing where
  level : Nat := 0
  body : List Token := []

def Enclosing.turn (s : Enclosing) (t : Token) : Turn Enclosing (List Token) :=
  if t.opensBlock then .more ⟨s.level + 1, t :: s.body⟩
  else if t.closesBlock then
    match s.level with
    | 0 => .done s.body.reverse
    | level + 1 => .more ⟨level, t :: s.body⟩
  else .more { s with body := t :: s.body }

def block : ReaderM (List Token) := scan "end" Enclosing.turn {}

inductive Op where
  | peek
  | next
  | skipBlank
  | name
  | number
  | string
  | expecting (expected : Expected)
  | names (stop : String)
  | list (stop : String)
  | upto (stop : String)
  | line
  | block
  deriving DecidableEq, Repr

def Op.word : Op → String
  | .peek => "peek"
  | .next => "next"
  | .skipBlank => "skip_space"
  | .name => "name"
  | .number => "number"
  | .string => "string"
  | .expecting _ => "expecting"
  | .names _ => "names"
  | .list _ => "list"
  | .upto _ => "upto"
  | .line => "line"
  | .block => "block"

abbrev Op.Answer : Op → Type
  | .peek | .next | .skipBlank => Token
  | .name | .string | .expecting _ => String
  | .number => Number
  | .names _ => List String
  | .list _ => List (List Token)
  | .upto _ | .line | .block => List Token

def perform : (op : Op) → ReaderM op.Answer
  | .peek => peek
  | .next => next
  | .skipBlank => skipBlank
  | .name => name
  | .number => number
  | .string => string
  | .expecting expected => expecting expected
  | .names stop => names stop
  | .list stop => list stop
  | .upto stop => upto stop
  | .line => line
  | .block => block

def describe : ReaderM String := do
  return "<Getter at " ++ (← peek).describe ++ ">"

end Reader

end LuaExpander
