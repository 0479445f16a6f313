import LuaExpander.Program.Run

/-! The expansion of a unit: one scan forward over the tokens. A name with a definition is replaced
and the replacement is scanned next. Tokens that come out of a replacement, and not out of the
input, are marked with the name, which they do not invoke again. Keywords go out as they are;
those that open and close blocks change the depth and let handlers fire, whose output is scanned
next. -/
namespace LuaExpander

inductive Stop where
  | failed (why : Failure)
  -- The number of steps that was granted is used up.
  | starved
  deriving DecidableEq, Repr

structure Scan where
  session : Session
  cursor : Cursor
  out : Array Token := #[]
  -- The tokens are an argument and not a unit: blocks are not tracked, and it has no end token.
  nested : Bool := false
  -- The end has been met once, and the handlers that wait for it have fired.
  finishing : Bool := false

abbrev ScanM := ExceptT Stop (StateM Scan)

abbrev ArgumentExpander := List Token → Session → Except Stop (List Token) × Session

namespace Scan

def inSession (f : Session → Session) : ScanM Unit :=
  modify fun s => { s with session := f s.session }

def prepend (ts : List Token) : ScanM Unit :=
  modify fun s => { s with cursor := s.cursor.prepend ts }

def emit (t : Token) : ScanM Unit := modify fun s => { s with out := s.out.push t }

def number : ScanM Unit := modify fun s =>
  let (cursor, fresh) := s.cursor.number s.session.fresh
  { s with cursor, session.fresh := fresh }

def nextToken : ScanM (Option Token) := do
  let s ← get
  let (answer, cursor) := s.cursor.next
  set { s with cursor }
  match answer with
  | .ok t => return t
  | .error e => throw (.failed e)

def callError (d : Definition) (nameToken : Token) : Failure → Error
  | .error e => e
  | .fault f => .atToken (.callFailed d.name f) nameToken

def isTaken (taken : Array Token) (t : Token) : Bool :=
  t.serial.isSome && taken.any (·.serial == t.serial)

/- A token of a replacement: what was taken from the input stays as it is, and all else is marked
and put on the line of the name. -/
def settle (taken : Array Token) (name : String) (line : Line) (t : Token) : Token :=
  if isTaken taken t then t else t.markedBy name line

def textReplacement (d : Definition) (nameToken : Token) (args : List (List Token))
    (taken : Array Token) (value : List Token) : List Token :=
  let bound := (d.params.getD []).zip args
  value.flatMap fun t =>
    match if t.kind = .iden then bound.lookup t.value else none with
    | some arg => arg
    | none => [settle taken d.name nameToken.line t]

def readArguments (d : Definition) (nameToken : Token) :
    ScanM (List (List Token) × Array Token) := do
  match d.params with
  | none => return ([], #[])
  | some params =>
    let s ← get
    let reader : Reader := { cursor := s.cursor, origin := some nameToken }
    let (answer, reader) := (d.readArguments params nameToken).run.run reader
    set { s with cursor := reader.cursor }
    match answer with
    | .ok args => return (args, reader.taken)
    | .error f => throw (.failed f)

/- A token of an argument may be copied, and its copies are to have one number. -/
def numberArguments : List (List Token) → ScanM (List (List Token))
  | [] => return []
  | args => do
    let fresh := (← get).session.fresh
    modify fun s => { s with session.fresh := fresh + 1 }
    return Tokens.numberEach fresh 0 args

def expandArguments (expand : ArgumentExpander) : List (List Token) → ScanM (List (List Token))
  | [] => return []
  | arg :: rest => do
    let s ← get
    let (answer, session) := expand arg s.session
    set { s with session }
    match answer with
    | .ok ts => return ts :: (← expandArguments expand rest)
    | .error e => throw e

/- Without a value of its own, a bare call leaves what it has built. -/
def callResult (d : Definition) : Value × Builder → Value
  | (.nothing, built) => if d.isFunction then .nothing else .builder built
  | (v, _) => v

def callTransformer (d : Definition) (t : Transformer) (nameToken : Token)
    (args : List (List Token)) (taken : Array Token) : ScanM (List Token) := do
  let s ← get
  let reader : Option Reader :=
    if d.isFunction then none else some { cursor := s.cursor, origin := some nameToken }
  let call : Call := if d.isFunction then .applied args else .bare nameToken
  let (answer, f) := (t.run call).run { session := s.session, reader }
  let cursor := (f.reader.map (·.cursor)).getD s.cursor
  let taken := (f.reader.map (·.taken)).getD taken
  set { s with session := f.session, cursor }
  match answer >>= fun r => (callResult d r).toTokens with
  | .ok ts => return ts.map (settle taken d.name nameToken.line)
  | .error failure => throw (.failed (callError d nameToken failure))

def replacement (expand : ArgumentExpander) (d : Definition) (nameToken : Token) :
    ScanM (List Token) := do
  match d.body with
  | .text value =>
    let (args, taken) ← readArguments d nameToken
    let args ← numberArguments args
    inSession (·.logCall nameToken d args)
    return textReplacement d nameToken args taken value
  | .callable t =>
    number
    let (args, taken) ← readArguments d nameToken
    let args ← expandArguments expand args
    inSession (·.logCall nameToken d args)
    callTransformer d t nameToken args taken

/- A token of a handler's output, on the line of the token that it fired at unless it has one. -/
def place (t : Token) (u : Token) : Token :=
  { u with line := Line.orElse u.line t.line, serial := none }

def runHandler (h : Handler) (t : Token) (f : Frame) : Except Error (List Token) × Frame :=
  match h with
  | .restore subject height => (.ok [], { f with session := f.session.restore subject height })
  | .program name run =>
    let (answer, f) := (run t).run f
    match answer >>= fun r => r.1.toTokens t.line with
    | .ok ts => (.ok (ts.map (place t)), f)
    | .error (.error e) => (.error e, f)
    | .error (.fault x) => (.error (.atToken (.handlerFailed name x) t), f)

def runHandlers (t : Token) : List Handler → Frame → Except Error (List Token) × Frame
  | [], f => (.ok [], f)
  | h :: hs, f =>
    match runHandler h t f with
    | (.error e, f) => (.error e, f)
    | (.ok ts, f) =>
      match runHandlers t hs f with
      | (.error e, f) => (.error e, f)
      | (.ok more, f) => (.ok (ts ++ more), f)

def fire (handlers : List Handler) (t : Token) (reads : Bool) : ScanM Unit := do
  let s ← get
  let reader : Option Reader :=
    if reads then some { cursor := s.cursor, origin := some t } else none
  let (answer, f) := runHandlers t handlers { session := s.session, reader }
  let cursor := (f.reader.map (·.cursor)).getD s.cursor
  set { s with session := f.session, cursor }
  match answer with
  | .ok ts => prepend ts
  | .error e => throw (.failed e)

def fireKeyword (word : String) (t : Token) : ScanM Unit := do
  let handlers := (← get).session.blocks.handlersFor word
  if handlers.isEmpty then return
  number
  fire handlers t true

def fireDeferred (handlers : List Handler) (t : Token) : ScanM Unit := fire handlers t false

def liftBlocks (answer : Except Error α) : ScanM α :=
  match answer with
  | .ok a => return a
  | .error e => throw (.failed e)

def openBlock (t : Token) : ScanM Unit := do
  inSession (·.enterBlock t)
  fireKeyword t.value t

def closeBlock (t : Token) : ScanM Unit := do
  let (handlers, session) ← liftBlocks ((← get).session.leaveBlock t)
  inSession fun _ => session
  fireDeferred handlers t
  fireKeyword t.value t

def keyword (t : Token) : ScanM Unit := do
  emit t
  if (← get).nested then return
  if t.opensBlock then openBlock t
  else if t.closesBlock then closeBlock t
  else fireKeyword t.value t

/- The end of the input. When it is met first, handlers can add more input; the second time it goes
out, and the scan is done. -/
def atEnd (t : Token) : ScanM Bool := do
  let s ← get
  if s.finishing then
    liftBlocks (s.session.blocks.checkFinished t)
    emit t
    return true
  set { s with finishing := true }
  let (handlers, blocks) ← liftBlocks (s.session.blocks.finish t)
  inSession fun s => { s with blocks }
  prepend [t]
  fireKeyword "END" t
  fireDeferred handlers t
  return false

def logHeld (t : Token) : Nat → Session → Session
  | 0, s => s
  | n + 1, s => logHeld t n (s.logHeld t)

def plain (expand : ArgumentExpander) (t : Token) : ScanM Unit := do
  let s ← get
  let (answer, cursor) := s.session.registry.find t s.cursor
  set { s with cursor }
  let search ← liftBlocks answer
  inSession (logHeld t search.held)
  match search.found with
  | none => emit t
  | some m =>
    let ts ← replacement expand m.definition m.nameToken
    inSession (·.logReplaced m.nameToken ts)
    prepend ts

def missingEnd (out : Array Token) : Token :=
  .endOfInput (Line.orElse (out.back?.bind (·.line)) (some 1))

def step (expand : ArgumentExpander) : ScanM Bool := do
  match ← nextToken with
  | none =>
    let s ← get
    if s.nested then return true else atEnd (missingEnd s.out)
  | some t =>
    match t.kind with
    | .eof => atEnd t
    | .keyword => do
      keyword t
      return false
    | _ => do
      plain expand t
      return false

def argument (run : Scan → Except Stop (List Token) × Scan) : ArgumentExpander :=
  fun arg session =>
    let (answer, s) := run { session, cursor := .ofTokens arg, nested := true }
    (answer, s.session)

/- Runs a scan to its end. The steps that are granted bound it, those of arguments too. -/
def run : Nat → Scan → Except Stop (List Token) × Scan
  | 0, s => (.error .starved, s)
  | steps + 1, s =>
    match (step (argument (run steps))).run.run s with
    | (.ok true, s) => (.ok s.out.toList, s)
    | (.ok false, s) => run steps s
    | (.error e, s) => (.error e, s)

def fireBegin : ScanM Unit := do
  let s ← get
  let (answer, cursor) := s.cursor.peek
  set { s with cursor }
  let first ← liftBlocks answer
  fireKeyword "BEGIN" (first.getD (.endOfInput (some 1)))

/- If handlers will fire, what they may look at has its numbers first. -/
def begin : ScanM Unit := do
  if !((← get).session.blocks.handlersFor "BEGIN").isEmpty then number
  fireBegin

def unit (steps : Nat) (s : Scan) : Except Stop (List Token) × Scan :=
  match begin.run.run s with
  | (.ok (), s) => run steps s
  | (.error e, s) => (.error e, s)

end Scan

/- The source of a unit: a text, which is lexed as far as the scan gets, tokens, or a file with its
name. -/
inductive Source where
  | text (s : String)
  | tokens (ts : List Token)
  | file (contents : String) (name : Option UnitName)
  deriving Repr

namespace Source

def cursor : Source → Cursor
  | text s => .ofText s
  | tokens ts => .ofTokens ts
  | file contents _ => .ofText contents

def name? : Source → Option UnitName
  | file _ name => name
  | _ => none

/- The name of the unit: the one that is asked for, or that of the file. -/
def title (unitName : Option String) (source : Source) : UnitName :=
  (Session.named (unitName.map .text) <|> Session.named source.name?).getD "<string>"

end Source

namespace Session

def enterUnit (name : UnitName) (s : Session) : Session := { s with unitName := some name }.reset

def beginUnit (name : UnitName) (s : Session) : Session :=
  (s.enterUnit name).logText ("Expanding " ++ name.shown) none 0

def failUnit (e : Error) (s : Session) : Session :=
  s.logText ("ERROR: " ++ e.kindName ++ ": " ++ e.message) e.line 0

def closeUnit (answer : Except Stop (List Token)) (scan : Scan) :
    Except Stop (List Token) × Session :=
  let line := scan.cursor.unread.lineReached scan.session.lexerLine
  let after := { scan.session with lexerLine := line }
  match answer with
  | .error (.failed (.error e)) =>
    let e := e.inUnit (after.unitName.getD "")
    (.error (.failed e), after.failUnit e)
  | answer => (answer, after)

/- Expands a unit. Definitions, keyword handlers, messages and log last; a unit that fails has no
output, and its error names the unit. If there is a log and the first message cannot be written to
it, nothing is expanded. -/
def expandUnit (steps : Nat) (source : Source) (unitName : Option String) (s : Session) :
    Except Stop (List Token) × Session :=
  let name := source.title unitName
  if (s.enterUnit name).cannotLog then
    (.error (.failed (.fault (.notAPath "int"))), s.enterUnit name)
  else
    let (answer, scan) := Scan.unit steps { session := s.beginUnit name, cursor := source.cursor }
    closeUnit answer scan

end Session

end LuaExpander
