import LuaExpander.Program

/-! Definitions: a name, possibly parameters, and the text or the transformer that replaces it. -/
namespace LuaExpander

inductive Body where
  | text (value : List Token)
  | callable (t : Transformer)

structure Definition where
  name : String
  -- A definition with parameters takes an argument list, be it an empty one.
  params : Option (List String)
  body : Body
  -- The block depth where the definition was made.
  depth : Nat
  line : Line

namespace Definition

def isFunction (d : Definition) : Bool := d.params.isSome

def isCallable (d : Definition) : Bool :=
  match d.body with
  | .text _ => false
  | .callable _ => true

def value (d : Definition) : List Token :=
  match d.body with
  | .text value => value
  | .callable _ => []

/- Do two definitions mean the same, blanks apart? Transformers have to be the very same. -/
def sameAs (a b : Definition) : Bool :=
  a.params == b.params &&
    match a.body, b.body with
    | .text v, .text w => Tokens.solidValues v == Tokens.solidValues w
    | .callable s, .callable t => s.id == t.id
    | _, _ => false

def paramText (d : Definition) : String :=
  match d.params with
  | some ps => "(" ++ String.intercalate ", " ps ++ ")"
  | none => ""

def describe (d : Definition) : String :=
  let body := match d.body with
    | .text value => Text.quoted (Tokens.text value)
    | .callable t => t.name
  d.name ++ d.paramText ++ "=" ++ body

inductive Meaning where
  | value (v : Value)
  | callable (t : Transformer)

structure Header where
  first : Token
  name : String
  params : Option (List String)
  rest : List Token
  deriving Repr

/- The name: an identifier that is not reserved, or a run of operators, in which a parenthesis can
only come first. -/
def readName (line : Line) : ReaderM (Token × String) := do
  let first ← Reader.skipBlank
  match first.kind with
  | .eof => throw (.error ⟨.missingName, (Line.shown? line), none⟩)
  | .keyword => throw (.error (.atToken (.reservedName first.value) first))
  | .op =>
    let _ ← Reader.next
    let more ← Reader.takeWhile fun t => t.kind == .op && t.value != "("
    return (first, first.value ++ Tokens.text more)
  | .iden =>
    let _ ← Reader.next
    return (first, first.value)
  | _ => throw (.error (.atToken (.notAName first.value) first))

/- Parameters follow if a parenthesis stands directly after the name. -/
def readParams (first : Token) (name : String) : ReaderM (Option (List String)) := do
  if (← Reader.peek).value ≠ "(" then return none
  let _ ← Reader.next
  let params ← Reader.names ")"
  let _ ← Reader.expecting (.text ")")
  if params.eraseDups.length ≠ params.length then
    throw (.error (.atToken (.duplicateParameter name) first))
  return some params

def readHeader (line : Line) : ReaderM Header := do
  let (first, name) ← readName line
  let params ← readParams first name
  return { first, name, params, rest := Tokens.strip (← get).cursor.ahead }

def header (spec : String) (line : Line) : Except Failure Header :=
  match parseTokens spec line with
  | .error e => .error e
  | .ok ts => ((readHeader line).run.run { cursor := .ofTokens ts }).1

/- The body from what follows the parameters, or from a meaning given apart, which leaves no room
for text there. -/
def readBody (h : Header) (meaning : Option Meaning) (line : Line) : Except Failure Body :=
  match meaning with
  | none => .ok (.text h.rest)
  | some meaning =>
    match h.rest with
    | t :: ts => .error (Error.atToken (.textAfterName (Tokens.text (t :: ts)) h.name) t)
    | [] =>
      match meaning with
      | .callable t => .ok (.callable t)
      | .value v => (fun ts => Body.text (Tokens.strip ts)) <$> v.toTokens line

def make (spec : String) (meaning : Option Meaning) (depth : Nat) (line : Line) :
    Except Failure Definition := do
  let h ← header spec line
  let body ← readBody h meaning line
  return { name := h.name, params := h.params, body, depth, line }

/- The arguments of a call, through the closing parenthesis. Nothing between the parentheses is no
argument if there are no parameters, and an empty one if there are. -/
def readArguments (d : Definition) (params : List String) (nameToken : Token) :
    ReaderM (List (List Token)) := do
  let t ← Reader.skipBlank
  if t.value ≠ "(" then throw (.error (.atToken (.missingArguments d.name t.value) t))
  let _ ← Reader.next
  let args ← Reader.list ")"
  let args := if args = [[]] ∧ params = [] then [] else args
  if args.length ≠ params.length then
    throw (.error (.atToken (.wrongArity d.name params.length args.length) nameToken))
  return args

end Definition

end LuaExpander
