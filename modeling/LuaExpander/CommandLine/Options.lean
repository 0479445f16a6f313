import LuaExpander.CommandLine.Request
import LuaExpander.Session

/-! The settings of a run, and the definitions that it begins with. -/
namespace LuaExpander.CommandLine

inductive Input where
  | standard
  | file (path : String)
  deriving DecidableEq, Repr

def Input.ofArgument (argument : String) : Input :=
  if argument = "-" then .standard else .file argument

def Input.name : Input → String
  | .standard => "<stdin>"
  | .file path => path

inductive Channel where
  | standardError
  | standardOutput
  | file (path : String)
  deriving DecidableEq, Repr

def Channel.ofArgument (argument : String) : Channel :=
  if argument = "-" then .standardOutput else .file argument

def Channel.name : Channel → String
  | .standardError => "<stderr>"
  | .standardOutput => "<stdout>"
  | .file path => path

inductive Item where
  | define (text : String)
  | undefine (name : String)
  deriving DecidableEq, Repr

namespace Item

/- Items are kept as texts; that of a definition to be taken back ends with a minus sign. -/
def text : Item → String
  | define text => text
  | undefine name => name ++ "-"

def spec (text : List Char) : String :=
  match splitAssignment text with
  | (name, some value) => String.ofList (name ++ ' ' :: value)
  | (name, none) => String.ofList (name ++ [' ', '1'])

/- A minus sign at the end takes a definition back, unless there is an equals sign. -/
def applyText (text : List Char) : SessionM Unit :=
  if !text.contains '=' && text.getLast? == some '-' then
    modify (·.undefine (String.ofList text.dropLast))
  else do let _ ← Session.define (spec text) none

def apply (item : Item) : SessionM Unit := applyText item.text.toList

def applyAll : List Item → SessionM Unit
  | [] => return
  | item :: items => do
    item.apply
    applyAll items

end Item

structure Options where
  inputs : List Input := [.standard]
  output : String := "-"
  items : List Item := []
  builtins : Bool := true
  log : Option String := none
  diagnostics : Channel := .standardError
  verbosity : Nat := 0
  unknown : List String := []
  deriving DecidableEq, Repr

def defaultLog : String := "luamacro_debug.log"

namespace Options

def logPath? (o : Options) : Option String := o.log.filter (!·.isEmpty)

def add (o : Options) : Request → Options
  | .inputs paths => { o with inputs := paths.map .ofArgument }
  | .output path => { o with output := path }
  | .define text => { o with items := o.items ++ [.define text] }
  | .undefine name => { o with items := o.items ++ [.undefine name] }
  | .noBuiltins => { o with builtins := false }
  | .log path => { o with log := some (path.getD defaultLog) }
  | .diagnostics path =>
    { o with diagnostics := (path.map Channel.ofArgument).getD .standardError }
  | .verbose => { o with verbosity := o.verbosity + 1 }
  | .unknown text => { o with unknown := o.unknown ++ [text] }
  | .help | .version | .misuse _ => o

end Options

end LuaExpander.CommandLine
