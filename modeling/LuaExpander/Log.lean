import LuaExpander.Error
import LuaExpander.Text.Wrap

/-! The log: messages in two columns. On the left stands the place, on the right the message,
indented by block depth and wrapped. -/
namespace LuaExpander

/- The part of a path after the last slash. -/
def baseName (path : String) : String :=
  String.ofList ((path.toList.reverse.takeWhile (· ≠ '/')).reverse)

/- A place as messages name it; details keep the whole path. -/
def placeText (unitName : UnitName) (detailed : Bool) (line : Line) : String :=
  let file := if detailed then unitName.shown else baseName unitName.shown
  match Line.shown? line with
  | some n => file ++ ":" ++ toString n
  | none => file

namespace Log

structure Entry where
  left : String
  right : String
  deriving DecidableEq, Repr

def width : Nat := 80

/- The margins of messages: a bar for each open block, and two spaces for each level of nesting. -/
def margins (depth nesting : Nat) : Text.Margins :=
  let bars := (List.replicate depth ['|', ' ']).flatten
  let first := bars ++ List.replicate (2 * nesting) ' '
  ⟨width, first, first ++ ['.', '.', '.', ' ']⟩

def messageLines (depth nesting : Nat) (text : String) : List String :=
  let lines := (Text.lines text).filter fun line => !(Text.trim line).isEmpty
  (lines.flatMap (Text.wrap (margins depth nesting))).map String.ofList

def entries (place : String) (depth nesting : Nat) (text : String) : List Entry :=
  match messageLines depth nesting text with
  | [] => []
  | line :: lines => ⟨place, line⟩ :: lines.map fun line => ⟨"", line⟩

def render (es : List Entry) : String :=
  let left := (es.map (·.left.length)).foldl max 0
  String.join (es.map fun e =>
    e.left ++ String.ofList (List.replicate (left - e.left.length) ' ') ++ " " ++ e.right ++ "\n")

end Log

end LuaExpander
