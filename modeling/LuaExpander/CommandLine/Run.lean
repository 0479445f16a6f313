import LuaExpander.CommandLine.Folder
import LuaExpander.CommandLine.Options
import LuaExpander.Expansion
import LuaExpander.Standard

/-! A run of the command line. Files that the options name are opened as the options are read; the
inputs are expanded one after the other, with the definitions of those before; and the output is
written only if there was no error. A file is read as UTF-8, without a byte order mark at its front
and with every line end as a single newline. -/
namespace LuaExpander

namespace Text

def unifyLines : List Char → List Char
  | '\r' :: '\n' :: cs => '\n' :: unifyLines cs
  | '\r' :: cs => '\n' :: unifyLines cs
  | c :: cs => c :: unifyLines cs
  | [] => []

def byteOrderMark : List UInt8 := [0xEF, 0xBB, 0xBF]

def dropMark : List Char → List Char
  | c :: cs => if c = '\uFEFF' then cs else c :: cs
  | [] => []

/- The text of a file, if it is one. A mark that breaks off is all there is to it and no text. -/
def decode (bytes : ByteArray) : Option String :=
  if bytes.size < 3 ∧ bytes.toList.isPrefixOf byteOrderMark then some ""
  else (String.fromUTF8? bytes).map fun s => String.ofList (unifyLines (dropMark s.toList))

end Text

namespace CommandLine

def versionText : String := "luamacro 0.1.0\n"

def usageText : String :=
  "usage: luamacro [-h] [-o path] [-D MACRO[=VAL]] [-U macro] [--no-builtins]\n"
    ++ "                [--debug [path]] [--diag [path]] [-v] [--version]\n"
    ++ "                [input ...]\n"

def helpText : String :=
  usageText
    ++ "\nExpands lexically scoped macros in Lua source, writing Lua source which any\n"
    ++ "Lua compiler accepts.\n"
    ++ "\npositional arguments:\n"
    ++ "  input                 Files to preprocess (use '-' for stdin)\n"
    ++ "\noptions:\n"
    ++ "  -h, --help            show this help message and exit\n"
    ++ "  -o path, --output path\n"
    ++ "                        Output to a file instead of stdout\n"
    ++ "  -D MACRO[=VAL]        Predefine MACRO as a macro with value VAL. If just\n"
    ++ "                        MACRO is given, VAL is taken to be 1. MACRO may have a\n"
    ++ "                        parameter list, as in -D\"SQ(x)=x*x\".\n"
    ++ "  -U macro              Remove the active definition of macro, such as a\n"
    ++ "                        built-in one. Processed in order with any -D options.\n"
    ++ "  --no-builtins         Do not define the built-in macros.\n"
    ++ "  --debug [path]        Generate a log file for logging execution. Default =\n"
    ++ "                        luamacro_debug.log.\n"
    ++ "  --diag [path]         Write diagnostics to a file instead of stderr.\n"
    ++ "  -v                    Print more log details; repeat for still more.\n"
    ++ "  --version             show program's version number and exit\n"
    ++ "\nNothing is written if any input file has an error.\n"

def misuseText (message : String) : String :=
  usageText ++ "luamacro: error: " ++ message ++ "\n"

inductive Ending where
  -- All was done that could be: 0 without errors, 1 with some, 2 if files could not be used.
  | finished (code : Nat)
  -- The options asked for no more, or could not be understood.
  | stopped (code : Nat)
  deriving DecidableEq, Repr

variable {m : Type → Type} [Monad m]

abbrev RunM (m : Type → Type) := ExceptT Ending m

def stop (host : Host m) (message : String) : RunM m α := do
  host.err (misuseText message)
  throw (.stopped 2)

def cannotOpen (label path : String) : String :=
  "argument " ++ label ++ ": can't open " ++ Text.quoted path

def openInputs (host : Host m) : List Input → RunM m Unit
  | [] => return
  | .standard :: rest => openInputs host rest
  | .file path :: rest => do
    if (← host.read path).isSome then openInputs host rest
    else stop host (cannotOpen "input" path)

def openChannel (host : Host m) : Channel → RunM m Unit
  | .file path => do
    if ← host.create path then return else stop host (cannotOpen Switch.diagnostics.label path)
  | _ => return

def accept (host : Host m) (o : Options) (r : Request) : RunM m Options := do
  match r with
  | .help =>
    host.out helpText
    throw (.stopped 0)
  | .version =>
    host.out versionText
    throw (.stopped 0)
  | .misuse message => stop host message
  | .inputs _ => openInputs host (o.add r).inputs
  | .diagnostics _ => openChannel host (o.add r).diagnostics
  | _ => pure ()
  return o.add r

def acceptAll (host : Host m) (o : Options) : List Request → RunM m Options
  | [] => return o
  | r :: rest => do acceptAll host (← accept host o r) rest

def lines (texts : List String) : String := String.join (texts.map (· ++ "\n"))

def Channel.write (host : Host m) (text : String) : Channel → m Unit
  | .standardError => host.err text
  | .standardOutput => host.out text
  | .file path => host.overwrite path text

def Options.session (o : Options) : Session :=
  let s : Session := { verbosity := o.verbosity, log := o.logPath?.map fun _ => #[] }
  if o.builtins then Standard.install s else s

structure Progress where
  session : Session
  texts : List String := []
  said : Nat := 0

namespace Progress

def announce (host : Host m) (o : Options) (p : Progress) : m Progress := do
  let messages := p.session.diagnostics.toList
  o.diagnostics.write host (lines (messages.drop p.said))
  return { p with said := messages.length }

def breakOff (host : Host m) (o : Options) (p : Progress) (reason : String) : RunM m α := do
  let _ ← ExceptT.lift (p.announce host o)
  host.err ("luamacro: " ++ reason ++ "\n")
  throw (.finished 2)

def settle (p : Progress) : Except Error (List Token) → Progress
  | .ok ts => { p with texts := p.texts ++ [Tokens.text ts] }
  | .error e => { p with session := p.session.reportError e }

end Progress

def readInput (host : Host m) : Input → m (Option String)
  | .standard => some <$> host.input
  | .file path => do return (← host.read path).bind Text.decode

def writeLog (host : Host m) (o : Options) (p : Progress) : RunM m Unit := do
  match o.logPath? with
  | none => return
  | some path =>
    let entries := (p.session.log.getD #[]).toList
    if ← host.write path (Log.render entries) then return
    else p.breakOff host o ("can't write " ++ Text.quoted path)

def expandInput (host : Host m) (steps : Nat) (o : Options) (p : Progress) (input : Input) :
    RunM m Progress := do
  match ← ExceptT.lift (readInput host input) with
  | none => p.breakOff host o ("can't read " ++ Text.quoted input.name)
  | some text =>
    match p.session.expandUnit steps (.text text) (some input.name) with
    | (.ok ts, session) =>
      let p := { p with session }
      writeLog host o p
      return p.settle (.ok ts)
    | (.error (.failed (.error e)), session) =>
      let p := { p with session }
      writeLog host o p
      return p.settle (.error e)
    | (.error (.failed (.fault f)), session) =>
      let p := { p with session }
      p.breakOff host o (f.kind ++ ": " ++ f.message)
    | (.error .starved, session) =>
      let p := { p with session }
      p.breakOff host o "no end in sight"

def expandInputs (host : Host m) (steps : Nat) (o : Options) (p : Progress) :
    List Input → RunM m Progress
  | [] => return p
  | input :: rest => do
    let p ← expandInput host steps o p input
    expandInputs host steps o p rest

def Options.begin (o : Options) : Bool × Session :=
  match (Item.applyAll o.items).run.run o.session with
  | (.ok (), s) => (true, s)
  | (.error (.error e), s) => (false, s.reportError (e.inUnit "<command line>"))
  | (.error (.fault f), s) => (false, s.report .error (some "<command line>") none f.message)

def writeOutput (host : Host m) (o : Options) (p : Progress) : RunM m Unit := do
  if p.session.errors = 0 then
    if o.output = "-" then host.out (String.join p.texts)
    else if ← host.write o.output (String.join p.texts) then return
    else p.breakOff host o ("can't write " ++ Text.quoted o.output)

def finish (host : Host m) (o : Options) (p : Progress) : m Ending := do
  let p ← { p with session := p.session.finish }.announce host o
  if o.diagnostics ≠ .standardError then host.err (p.session.summary o.diagnostics.name)
  return .finished (if p.session.errors = 0 then 0 else 1)

def Channel.isStream : Channel → Bool
  | .standardError | .standardOutput => true
  | .file _ => false

def process (host : Host m) (steps : Nat) (o : Options) : RunM m Ending := do
  host.err (lines (o.unknown.map fun text =>
    "NOTE: Argument '" ++ text ++ "' not known, ignoring!"))
  let (accepted, session) := o.begin
  let p : Progress := { session }
  if accepted then
    let p ← expandInputs host steps o p o.inputs
    let p ← if o.diagnostics.isStream then ExceptT.lift (p.announce host o) else pure p
    writeOutput host o p
    ExceptT.lift (finish host o p)
  else ExceptT.lift (finish host o p)

def run (host : Host m) (steps : Nat) (arguments : List String) : m Ending := do
  let all : RunM m Ending := do
    process host steps (← acceptAll host {} (requests arguments))
  match ← all.run with
  | .ok ending => return ending
  | .error ending => return ending

end CommandLine

end LuaExpander
