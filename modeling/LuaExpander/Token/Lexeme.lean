import LuaExpander.Error
import LuaExpander.Text.Wrap

/-! The lexeme at the front of a text. The rules are tried in a fixed order and the first that
applies wins, whether or not a later one would reach further: comments, long strings, quoted
strings, numbers, names, blanks, operators. A rule splits the text into the lexeme and the rest. -/
namespace LuaExpander.Lexeme

abbrev Split := List Char × List Char

def longLevel? : List Char → Option Nat
  | '[' :: cs =>
    match cs.dropWhile (· = '=') with
    | '[' :: _ => some (cs.takeWhile (· = '=')).length
    | _ => none
  | _ => none

def longOpener (level : Nat) : List Char := '[' :: (List.replicate level '=' ++ ['['])

def longCloser (level : Nat) : List Char := ']' :: (List.replicate level '=' ++ [']'])

def through? (mark : List Char) : List Char → Option Split
  | [] => none
  | c :: cs =>
    if mark.isPrefixOf (c :: cs) then some (mark, (c :: cs).drop mark.length)
    else (through? mark cs).map fun s => (c :: s.1, s.2)

def longBracket? (level : Nat) (cs : List Char) : Option Split :=
  let opener := longOpener level
  (through? (longCloser level) (cs.drop opener.length)).map fun s => (opener ++ s.1, s.2)

/- The inside of a quoted string through its closing quote. A backslash takes any character with it.
After `\z` blanks are `skipping`, line ends among them, which are not allowed elsewhere. -/
def quotedEnd? (quote : Char) (skipping : Bool) : List Char → Option Split
  | [] => none
  | '\\' :: c :: cs =>
    (quotedEnd? quote (c == 'z') cs).map fun s => ('\\' :: c :: s.1, s.2)
  | c :: cs =>
    if c = quote then some ([c], cs)
    else if c = '\\' then none
    else if c = '\n' ∧ ¬ skipping then none
    else (quotedEnd? quote (skipping && Text.isBlank c) cs).map fun s => (c :: s.1, s.2)

def quoted? : List Char → Option Split
  | [] => none
  | c :: cs =>
    if c = '"' ∨ c = '\'' then (quotedEnd? c false cs).map fun s => (c :: s.1, s.2) else none

def isHexDigit (c : Char) : Bool :=
  c.isDigit || ('a' ≤ c && c ≤ 'f') || ('A' ≤ c && c ≤ 'F')

def mantissa? (digit : Char → Bool) (cs : List Char) : Option Split :=
  let whole := cs.takeWhile digit
  match cs.dropWhile digit with
  | '.' :: after =>
    let part := after.takeWhile digit
    if whole.isEmpty && part.isEmpty then none
    else some (whole ++ '.' :: part, after.dropWhile digit)
  | after => if whole.isEmpty then none else some (whole, after)

def sign : List Char → Split
  | c :: cs => if c = '+' ∨ c = '-' then ([c], cs) else ([], c :: cs)
  | [] => ([], [])

def exponent (letter : Char → Bool) (cs : List Char) : Split :=
  match cs with
  | [] => ([], [])
  | c :: after =>
    let (mark, digits) := sign after
    let power := digits.takeWhile Char.isDigit
    if letter c && !power.isEmpty then (c :: (mark ++ power), digits.dropWhile Char.isDigit)
    else ([], cs)

def numeral? (digit letter : Char → Bool) (cs : List Char) : Option Split :=
  (mantissa? digit cs).map fun s =>
    let e := exponent letter s.2
    (s.1 ++ e.1, e.2)

def hexadecimal? : List Char → Option Split
  | '0' :: x :: cs =>
    if x = 'x' ∨ x = 'X' then
      (numeral? isHexDigit (fun c => c == 'p' || c == 'P') cs).map fun s => ('0' :: x :: s.1, s.2)
    else none
  | _ => none

def decimal? (cs : List Char) : Option Split :=
  numeral? Char.isDigit (fun c => c == 'e' || c == 'E') cs

def number? (cs : List Char) : Option Split := (hexadecimal? cs).or (decimal? cs)

def isNameStart (c : Char) : Bool := c.isAlpha || c == '_'

def isNameChar (c : Char) : Bool := c.isAlphanum || c == '_'

def name? : List Char → Option Split
  | [] => none
  | c :: cs =>
    if isNameStart c then some (c :: cs.takeWhile isNameChar, cs.dropWhile isNameChar) else none

def blank? : List Char → Option Split
  | [] => none
  | c :: cs =>
    if Text.isBlank c then some (c :: cs.takeWhile Text.isBlank, cs.dropWhile Text.isBlank)
    else none

def longOperators : List (List Char) :=
  [['.', '.', '.'], ['.', '.'], ['=', '='], ['~', '='], ['<', '='], ['>', '='], ['/', '/'],
   [':', ':'], ['<', '<'], ['>', '>']]

def isOperatorChar (c : Char) : Bool :=
  !Text.isBlank c && !isNameChar c && c != '"' && c != '\''

def operator? : List Char → Option Split
  | [] => none
  | c :: cs =>
    match longOperators.find? (·.isPrefixOf (c :: cs)) with
    | some o => some (o, (c :: cs).drop o.length)
    | none => if isOperatorChar c then some ([c], cs) else none

inductive Result where
  | lexeme (kind : Kind) (text rest : List Char)
  | unfinished (cause : Cause)
  deriving DecidableEq, Repr

def Result.of (kind : Kind) (cause : Cause) : Option Split → Result
  | some s => .lexeme kind s.1 s.2
  | none => .unfinished cause

def comment (after : List Char) : Result :=
  match longLevel? after with
  | some level =>
    .of .comment (.unfinishedComment (String.ofList (longOpener level)))
      ((longBracket? level after).map fun s => ('-' :: '-' :: s.1, s.2))
  | none =>
    .lexeme .comment ('-' :: '-' :: after.takeWhile (· != '\n')) (after.dropWhile (· != '\n'))

def nameKind (text : List Char) : Kind :=
  if String.ofList text ∈ reservedWords then .keyword else .iden

/- The rules for one lexeme without brackets, in order; a text that none applies to begins with a
quote that is never closed. -/
def plain (cs : List Char) : Result :=
  match quoted? cs with
  | some s => .lexeme .string s.1 s.2
  | none =>
  match number? cs with
  | some s => .lexeme .number s.1 s.2
  | none =>
  match name? cs with
  | some s => .lexeme (nameKind s.1) s.1 s.2
  | none =>
  match blank? cs with
  | some s => .lexeme .space s.1 s.2
  | none =>
  .of .op (.unfinishedString (String.ofList (cs.takeWhile (· != '\n')))) (operator? cs)

def first (cs : List Char) : Result :=
  match cs with
  | '-' :: '-' :: after => comment after
  | _ =>
    match longLevel? cs with
    | some level =>
      .of .string (.unfinishedLongString (String.ofList (longOpener level)))
        (longBracket? level cs)
    | none => plain cs

end LuaExpander.Lexeme
