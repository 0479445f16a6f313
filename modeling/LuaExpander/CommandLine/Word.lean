import LuaExpander.Text.Quoted
import LuaExpander.Text.Word

/-! The words of a command line. A word is an option, possibly with a value, a cluster of short
options, an option that is not known, or anything else. -/
namespace LuaExpander.CommandLine

inductive Switch where
  | help
  | output
  | define
  | undefine
  | noBuiltins
  | log
  | diagnostics
  | verbose
  | version
  deriving DecidableEq, Repr

inductive Arity where
  | bare
  | valued
  | optional
  deriving DecidableEq, Repr

def Switch.arity : Switch → Arity
  | .help | .noBuiltins | .verbose | .version => .bare
  | .output | .define | .undefine => .valued
  | .log | .diagnostics => .optional

def shortNames : List (Char × Switch) :=
  [('h', .help), ('o', .output), ('D', .define), ('U', .undefine), ('v', .verbose)]

def longNames : List (String × Switch) :=
  [("--help", .help), ("--output", .output), ("--no-builtins", .noBuiltins), ("--debug", .log),
   ("--diag", .diagnostics), ("--version", .version)]

def Switch.label : Switch → String
  | .help => "-h/--help"
  | .output => "-o/--output"
  | .define => "-D"
  | .undefine => "-U"
  | .noBuiltins => "--no-builtins"
  | .log => "--debug"
  | .diagnostics => "--diag"
  | .verbose => "-v"
  | .version => "--version"

inductive Word where
  | plain (text : String)
  | separator
  | short (s : Switch) (rest : List Char)
  | long (s : Switch) (value : Option String)
  | unknown (text : String)
  deriving DecidableEq, Repr

def splitAssignment (cs : List Char) : List Char × Option (List Char) :=
  match cs.dropWhile (· ≠ '=') with
  | [] => (cs, none)
  | _ :: value => (cs.takeWhile (· ≠ '='), some value)

def isNegative (digits : List Char) : Bool :=
  let digits := if digits.getLast? = some '\n' then digits.dropLast else digits
  match digits.dropWhile Text.isDecimal with
  | [] => !digits.isEmpty
  | '.' :: fraction => !fraction.isEmpty && fraction.all Text.isDecimal
  | _ => false

/- The long options that a name can stand for: the one it is, or all that it begins. -/
def longMatches (name : List Char) : List (String × Switch) :=
  match longNames.filter fun entry => entry.1.toList == name with
  | [] => longNames.filter fun entry => name.isPrefixOf entry.1.toList
  | exact => exact

def otherWord (text : String) (afterDash : List Char) : Word :=
  if isNegative afterDash || afterDash.contains ' ' then .plain text else .unknown text

def ambiguous (text : String) (found : List (String × Switch)) : String :=
  "ambiguous option: " ++ text ++ " could match " ++ String.intercalate ", " (found.map (·.1))

def readWord (text : String) : Except String Word :=
  match text.toList with
  | '-' :: '-' :: cs =>
    let (name, value) := splitAssignment ('-' :: '-' :: cs)
    match longMatches name with
    | [] => .ok (otherWord text ('-' :: cs))
    | [(_, s)] => .ok (.long s (value.map String.ofList))
    | found => .error (ambiguous text found)
  | '-' :: c :: cs =>
    match shortNames.lookup c with
    | some s => .ok (.short s cs)
    | none => .ok (otherWord text (c :: cs))
  | _ => .ok (.plain text)

def readWords : List String → Except String (List Word)
  | [] => .ok []
  | text :: rest =>
    if text = "--" then .ok (.separator :: rest.map .plain)
    else do
      let w ← readWord text
      return w :: (← readWords rest)

end LuaExpander.CommandLine
