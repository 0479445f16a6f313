import LuaExpander.Blocks
import LuaExpander.Contexts
import LuaExpander.Log
import LuaExpander.Registry

/-! A session: everything that lasts from one unit to the next, and the operations that change it.
An operation that fails leaves the session as it then is. -/
namespace LuaExpander

structure Session where
  registry : Registry := {}
  blocks : Blocks Handler := {}
  contexts : Contexts Value := {}
  unitName : Option UnitName := none
  -- From 2 on messages give whole paths.
  verbosity : Nat := 0
  log : Option (Array Log.Entry) := none
  diagnostics : Array String := #[]
  errors : Nat := 0
  warnings : Nat := 0
  -- The line that the lexer of the units' texts stands at.
  lexerLine : Nat := 1
  notes : Array Value := #[]
  -- The next number for a token or a transformer.
  fresh : Nat := 0

abbrev SessionM := ExceptT Failure (StateM Session)

namespace Session

def isDetailed (s : Session) : Bool := 2 ≤ s.verbosity

/- Without detail, places are given by the last part of a path, which a number does not have. -/
def isPlaced (name : Option UnitName) (s : Session) : Bool :=
  match name with
  | some (.descriptor _) => s.isDetailed
  | _ => true

def cannotLog (s : Session) : Bool := s.log.isSome && !s.isPlaced s.unitName

def logText (text : String) (line : Line) (nesting : Nat) (s : Session) : Session :=
  match s.log with
  | none => s
  | some entries =>
    let place := placeText (s.unitName.getD "<unknown>") s.isDetailed line
    { s with log := some (entries ++ (Log.entries place s.blocks.depth nesting text).toArray) }

def logDefined (d : Definition) (s : Session) : Session :=
  s.logText ("Define " ++ d.describe) d.line 0

def logHeld (t : Token) (s : Session) : Session :=
  s.logText ("Macro " ++ t.value ++ " not expanded: it is in its own replacement.") t.line 0

def logBlock (t : Token) (verb : String) (fired : Nat) (s : Session) : Session :=
  let text := verb ++ " " ++ Text.quoted t.value ++ ", depth " ++ toString s.blocks.depth
  let text := if fired = 0 then text else text ++ ", " ++ toString fired ++ " handler(s)"
  s.logText text t.line 0

def logRestored (name : String) (s : Session) : Session :=
  match s.registry.get? name with
  | some d => s.logText ("End of scope, " ++ name ++ " restored to " ++ d.describe) none 0
  | none => s.logText ("End of scope, " ++ name ++ " undefined") none 0

def logArguments (t : Token) : List (String × List Token) → Session → Session
  | [], s => s
  | (name, arg) :: rest, s =>
    logArguments t rest
      (s.logText ("Arg " ++ name ++ " = " ++ Text.quoted (Tokens.text arg)) t.line 1)

def logCall (t : Token) (d : Definition) (args : List (List Token)) (s : Session) : Session :=
  let parens := if d.isFunction then "()" else ""
  let s := s.logText ("Expand macro " ++ d.name ++ parens) t.line 0
  s.logArguments t ((d.params.getD []).zip args)

def logReplaced (t : Token) (replacement : List Token) (s : Session) : Session :=
  s.logText ("Replacement = " ++ Text.quoted (Tokens.text replacement)) t.line 1

inductive Severity where
  | warning
  | error
  deriving DecidableEq, Repr

def Severity.word : Severity → String
  | .warning => "warning"
  | .error => "ERROR"

def named (name : Option UnitName) : Option UnitName := name.filter (·.isGiven)

def report (severity : Severity) (unitName : Option UnitName) (line : Line) (message : String)
    (s : Session) : Session :=
  let file := (named unitName).getD ((named s.unitName).getD "<unknown>")
  let text := severity.word ++ ": " ++ message
  let s := s.logText text line 0
  let shown := placeText file s.isDetailed line ++ " " ++ text
  let s := { s with diagnostics := s.diagnostics.push shown }
  match severity with
  | .warning => { s with warnings := s.warnings + 1 }
  | .error => { s with errors := s.errors + 1 }

def cannotReport (unitName : Option UnitName) (s : Session) : Bool :=
  !s.isPlaced (named unitName <|> named s.unitName) || s.cannotLog

def reportAt (severity : Severity) (t : Option Token) (message : String) (s : Session) : Session :=
  s.report severity s.unitName (t.bind (·.line)) message

def reportError (e : Error) (s : Session) : Session :=
  s.report .error e.unitName e.line (e.kindName ++ ": " ++ e.message)

def countText (s : Session) : String :=
  toString s.errors ++ " error(s), " ++ toString s.warnings ++ " warning(s)."

def finish (s : Session) : Session :=
  { s with diagnostics := s.diagnostics.push s.countText }

def summary (diagnostics : String) (s : Session) : String :=
  if s.errors = 0 ∧ s.warnings = 0 then ""
  else s.countText ++ "  See diagnostic output " ++ Text.quoted diagnostics ++ ".\n"

def reset (s : Session) : Session := { s with blocks := s.blocks.reset, contexts := .empty }

def redefines (d : Definition) (s : Session) : Bool :=
  match s.registry.get? d.name with
  | some older => older.depth == d.depth && !d.sameAs older
  | none => false

def install (d : Definition) (warn : Bool) (s : Session) : Session :=
  let s := if warn && s.redefines d then
      s.report .warning s.unitName d.line
        ("Macro " ++ d.name ++ " redefined with different meaning.")
    else s
  { s with registry := s.registry.push d }.logDefined d

def define (spec : String) (meaning : Option Definition.Meaning) (warn : Bool := true)
    (line : Line := some 0) : SessionM Definition := do
  let d ← Definition.make spec meaning (← get).blocks.depth line
  modify (·.install d warn)
  return d

def cannotWarn (spec : String) (meaning : Option Definition.Meaning) (warn : Bool) (line : Line)
    (s : Session) : Bool :=
  !s.isPlaced s.unitName && warn &&
    match Definition.make spec meaning s.blocks.depth line with
    | .ok d => s.redefines d
    | .error _ => false

/- Defines a name as a program or a caller does it, who gets to know if a warning fails. -/
def declare (spec : String) (meaning : Option Definition.Meaning) (warn : Bool := true)
    (line : Line := some 0) : SessionM Definition := do
  if (← get).cannotWarn spec meaning warn line then throw (.fault (.notAPath "int"))
  else define spec meaning warn line

def undefine (name : String) (s : Session) : Session :=
  { s with registry := s.registry.undefine name }

def defer (handler : Handler) (depth : Option Int) : SessionM Unit := do
  let s ← get
  match s.blocks.defer handler depth with
  | .ok blocks => set { s with blocks }
  | .error f => throw (.fault f)

def onKeyword (word : String) (handler : Handler) (s : Session) : Session :=
  { s with blocks := s.blocks.onKeyword word handler }

def enterBlock (t : Token) (s : Session) : Session :=
  { s with blocks := s.blocks.enter }.logBlock t "Open" 0

def leaveBlock (t : Token) (s : Session) : Except Error (List Handler × Session) := do
  let (handlers, blocks) ← s.blocks.leave t
  return (handlers, { s.logBlock t "Close" handlers.length with blocks })

def scope (name : String) (meaning : Option Definition.Meaning) : SessionM Definition := do
  let height := (← get).registry.height name
  let d ← define name meaning false
  defer (.restore name height) none
  return d

def restore (name : String) (height : Nat) (s : Session) : Session :=
  if s.registry.isDefined name then
    { s with registry := s.registry.restore name height }.logRestored name
  else s

def logContext (name : String) (value : Value) (more : String) : SessionM Unit := do
  match value.describe with
  | .ok text => modify (·.logText ("Context " ++ name ++ " = " ++ text ++ more) none 0)
  | .error f => throw (.fault f)

def context : ContextOp → SessionM Value
  | .push name value => do
    modify fun s => { s with contexts := s.contexts.push name value }
    let level := (← get).contexts.depth name
    logContext name value (", level " ++ toString level)
    return .nothing
  | .update name value => do
    let s ← get
    match s.contexts.update name value with
    | .ok contexts =>
      set { s with contexts }
      logContext name value ""
      return .nothing
    | .error f => throw (.fault f)
  | .pop name => do
    let s ← get
    match s.contexts.pop name with
    | .ok (value, contexts) =>
      set ({ s with contexts }.logText ("Context " ++ name ++ " ended") none 0)
      return value
    | .error f => throw (.fault f)
  | .valueOf name => return ((← get).contexts.value? name).getD .nothing
  | .isActive name => return .flag ((← get).contexts.isActive name)
  | .depth name => return .number (.int ((← get).contexts.depth name))
  | .reset => do
    modify fun s => { s with contexts := .empty }
    return .nothing

def lexerText (s : Session) : String := "<LuaLex line " ++ toString s.lexerLine ++ ">"

def ticket (s : Session) : Nat × Session := (s.fresh, { s with fresh := s.fresh + 1 })

end Session

end LuaExpander
