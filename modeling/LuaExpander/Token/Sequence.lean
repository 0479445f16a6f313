import LuaExpander.Numeral.Read
import LuaExpander.Token.Literal

/-! Lists of tokens: their text, their ends, their parts between commas and the single values that
they may stand for. -/
namespace LuaExpander.Tokens

def text (ts : List Token) : String := String.join (ts.map (·.value))

def solidValues (ts : List Token) : List String := (ts.filter (·.kind.isSolid)).map (·.value)

def strip (ts : List Token) : List Token :=
  ((ts.dropWhile (!·.kind.isSolid)).reverse.dropWhile (!·.kind.isSolid)).reverse

def describe (ts : List Token) : String :=
  if ts.isEmpty then "<No tokens>"
  else
    let s := text ts
    let more := if s.length > 20 then "..." else ""
    "<Tokens " ++ String.ofList ((Text.quoted s).toList.take 20) ++ more ++ ">"

def isOpening (value : String) : Bool :=
  value ∈ ["", "(", "[", "\x7b", "([", "[\x7b", "([\x7b"]

def isClosing (value : String) : Bool :=
  value ∈ ["", ")", "]", "\x7d", ")]", "]\x7d", ")]\x7d"]

def splitFrom (level : Int) (piece : List Token) : List Token → List (List Token)
  | [] => [piece.reverse]
  | t :: ts =>
    if t.kind = .op then
      if isOpening t.value then splitFrom (level + 1) (t :: piece) ts
      else if isClosing t.value then splitFrom (level - 1) (t :: piece) ts
      else if t.value = "," ∧ level = 0 then piece.reverse :: splitFrom level [] ts
      else splitFrom level (t :: piece) ts
    else splitFrom level (t :: piece) ts

/- The stripped parts between commas outside of brackets. A blank list has no parts. -/
def splitCommas (ts : List Token) : List (List Token) :=
  if (strip ts).isEmpty then [] else (splitFrom 0 [] ts).map strip

def single (wanted : String) (kind : Kind) (ts : List Token) : Except Failure Token :=
  match strip ts with
  | [t] =>
    if t.kind = kind then .ok t
    else .error (Error.atToken (.wrongShape wanted (text [t])) t)
  | [] => .error (Failure.error ⟨.wrongShape wanted "", none, none⟩)
  | t :: more => .error (Error.atToken (.wrongShape wanted (text (t :: more))) t)

def asName (ts : List Token) : Except Failure String :=
  (·.value) <$> single "an identifier" .iden ts

def readNumber (t : Token) : Except Failure Number :=
  match Numeral.read t.value with
  | .ok n => .ok n
  | .error f => .error f

def readString (t : Token) : Except Failure String :=
  match Literal.unquote t.value with
  | .ok s => .ok s
  | .error f => .error f

/- The number, if the list is one, possibly after a minus. -/
def asNumber (ts : List Token) : Except Failure Number :=
  match strip ts with
  | [minus, t] =>
    if minus.value = "-" ∧ t.kind = .number then Number.neg <$> readNumber t
    else single "a number" .number ts >>= readNumber
  | _ => single "a number" .number ts >>= readNumber

def asString (ts : List Token) : Except Failure String :=
  single "a string" .string ts >>= readString

end LuaExpander.Tokens
