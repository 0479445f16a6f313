import LuaExpander.Program.Run
import LuaExpander.Script
import LuaExpander.Value.Operations

/-! Scripts as programs. Each call has variables and a builder of its own; a handler that a script
makes begins with the variables as they are then. -/
namespace LuaExpander.Script

/- What a variable holds: a value, or the builder of the call, whatever is built by the time. -/
inductive Slot where
  | value (v : Value)
  | built
  deriving Repr

structure Local where
  vars : List (String × Slot) := []
  built : Builder := .empty
  -- The token that the script was called at, if it can read on from there.
  origin : Option Token := none

namespace Local

def slotValue (l : Local) : Slot → Value
  | .value v => v
  | .built => .builder l.built

def get? (l : Local) (name : String) : Option Value := (l.vars.lookup name).map l.slotValue

def setSlot (l : Local) (name : String) (slot : Slot) : Local :=
  { l with vars := (name, slot) :: l.vars.filter (·.1 != name) }

def set (l : Local) (var : Option String) (v : Value) : Local :=
  match var with
  | some name => l.setSlot name (.value v)
  | none => l

def snapshot (l : Local) : List (String × Slot) :=
  l.vars.map fun (name, slot) => (name, .value (l.slotValue slot))

end Local

inductive Flow where
  | go (l : Local)
  | finish (v : Value) (built : Builder)

def fault (f : Fault) : Action α := Action.fail (.fault f)

def ofFault : Except Fault α → Action α
  | .ok a => pure a
  | .error f => fault f

def Method.word : Method → String
  | .strip => "strip"
  | .splitCommas => "split_commas"
  | .asName => "get_iden"
  | .asNumber => "get_number"
  | .asString => "get_string"

def Method.apply (m : Method) (v : Value) : Action Value :=
  match v with
  | .tokens ts =>
    match m with
    | .strip => pure (.tokens (Tokens.strip ts))
    | .splitCommas => pure (.list ((Tokens.splitCommas ts).map .tokens))
    | .asName => Action.ofExcept (Value.text <$> Tokens.asName ts)
    | .asNumber => Action.ofExcept (Value.number <$> Tokens.asNumber ts)
    | .asString => Action.ofExcept (Value.text <$> Tokens.asString ts)
  | v => fault (.lacking v.className m.word)

def wantText (v : Value) : Action String :=
  match v with
  | .text s => pure s
  | v => fault (.notText v.className)

def wantTexts : List Value → Action (List String)
  | [] => pure []
  | v :: vs => do
    let s ← wantText v
    return s :: (← wantTexts vs)

mutual

def Expr.eval (l : Local) : Expr → Action Value
  | .value v => pure v
  | .list es => do return .list (← evalAll l es)
  | .var name =>
    match l.get? name with
    | some v => pure v
    | none => fault (.unknownVariable name)
  | .lex text => Action.ofExcept (Value.tokens <$> Value.lexed text (some 0))
  | .built => pure (.builder l.built)
  | .builder e => do
    match ← e.eval l with
    | .nothing => return .builder .empty
    | v => return .builder (.ofTokens (← ofFault v.itemTokens))
  | .depth => do return .number (.int (← Action.ask .depth))
  | .context name => Action.ask (.context (.valueOf name))
  | .isDefined e => do return .flag (← Action.ask (.isDefined (← wantText (← e.eval l))))
  | .line =>
    match l.origin with
    | some t => pure (match t.line with | some n => .number (.int n) | none => .nothing)
    | none => fault (.noReader "origin")
  | .taken => do return .list ((← Action.ask .taken).map .token)
  | .concat es => do return .text (String.join (← ofFault ((← evalAll l es).mapM Value.plain)))
  | .add a b => do
    let v ← a.eval l
    ofFault (v.add (← b.eval l))
  | .greater a b => do
    let v ← a.eval l
    return .flag (← ofFault (v.greater (← b.eval l)))
  | .equal a b => do
    let v ← a.eval l
    return .flag (v.equal (← b.eval l))
  | .length e => do return .number (.int (← ofFault (← e.eval l).length))
  | .item e index => do ofFault ((← e.eval l).item index)
  | .tokenValue e => do
    match ← e.eval l with
    | .token t => return .text t.value
    | v => fault (.lacking v.className "value")
  | .method e m => do m.apply (← e.eval l)

def evalAll (l : Local) : List Expr → Action (List Value)
  | [] => pure []
  | e :: es => do
    let v ← e.eval l
    return v :: (← evalAll l es)

end

def Addition.apply (l : Local) (b : Builder) : Addition → Action Builder
  | .token kind e => do return b.token kind (← wantText (← e.eval l))
  | .string e => do return b.string (← wantText (← e.eval l))
  | .number e => do return b.token .number (← ofFault (← e.eval l).describe)
  | .tokens e => do return b.tokens (← ofFault (← e.eval l).itemTokens)
  | .names e => do return b.names (← wantTexts (← ofFault (← e.eval l).items))

/- The depth that a value stands for; nothing stands for the current one. -/
def wantDepth : Value → Action (Option Int)
  | .nothing => pure none
  | v =>
    match v.number? with
    | some (.int n) => pure (some n)
    | _ => fault (.notComparable "<" v.className "int")

def contextOp (m : ContextMethod) (name : String) (args : List Value) : ContextOp :=
  match m with
  | .push => .push name (args.headD .nothing)
  | .update => .update name (args.headD .nothing)
  | .pop => .pop name
  | .valueOf => .valueOf name
  | .isActive => .isActive name
  | .depth => .depth name
  | .reset => .reset

def given : Value → Option Value
  | .nothing => none
  | v => some v

def defineValue (life : Lifetime) (spec : String) (v : Value) : Action Unit :=
  match life with
  | .lasting => Action.ask (.define spec (given v) (some 0))
  | .block => Action.ask (.scope spec (given v))

def loopOver (var : Option String) (body : Local → Action Flow) :
    List Value → Local → Action Flow
  | [], l => pure (.go l)
  | v :: vs, l => do
    match ← body (l.set var v) with
    | .go l => loopOver var body vs l
    | .finish v b => return .finish v b

def programOf (body : Local → Action Flow) (l : Local) : Program :=
  Action.toProgram do
    match ← body l with
    | .go l => return (.nothing, l.built)
    | .finish v b => return (v, b)

def arguments (args : List (List Token)) : List (String × Slot) :=
  args.mapIdx fun i arg => ("a" ++ toString i, .value (.tokens arg))

def transformerRun (body : Local → Action Flow) : Call → Program
  | .bare origin => programOf body { origin := some origin }
  | .applied args => programOf body { vars := arguments args }

def keywordRun (vars : List (String × Slot)) (body : Local → Action Flow) (t : Token) : Program :=
  programOf body ({ vars, origin := some t : Local }.set (some "tok") (.token t))

def deferredRun (vars : List (String × Slot)) (body : Local → Action Flow) (_ : Token) : Program :=
  programOf body { vars }

mutual

def Step.exec (l : Local) : Step → Action Flow
  | .read var op => do return .go (l.set var (op.toValue (← Action.read op)))
  | .put a => do return .go { l with built := ← a.apply l l.built }
  | .set (some name) .built => pure (.go (l.setSlot name .built))
  | .set var e => do return .go (l.set var (← e.eval l))
  | .note e => do
    Action.ask (.note (← e.eval l))
    return .go l
  | .answer e => do return .finish (← e.eval l) l.built
  | .branch condition yes no => do
    if (← condition.eval l).isFalsy then execAll no l else execAll yes l
  | .loop var e body => do
    loopOver var (fun l => execAll body l) (← ofFault (← e.eval l).items) l
  | .define life spec value => do
    let spec ← wantText (← spec.eval l)
    let v ← value.eval l
    defineValue life spec v
    return .go l
  | .defineScript life spec name body => do
    let spec ← wantText (← spec.eval l)
    let id ← Action.ask .ticket
    Action.define life spec ⟨name, id, transformerRun (fun l => execAll body l)⟩
    return .go l
  | .undefine e => do
    Action.ask (.undefine (← wantText (← e.eval l)))
    return .go l
  | .defer level name body => do
    let depth ← wantDepth (← level.eval l)
    Action.defer depth name (deferredRun l.snapshot fun l => execAll body l)
    return .go l
  | .onKeyword word name body => do
    Action.onKeyword word name (keywordRun l.snapshot fun l => execAll body l)
    return .go l
  | .context var m name args => do
    let args ← evalAll l args
    return .go (l.set var (← Action.ask (.context (contextOp m name args))))
  | .nest name e body => do
    let v ← e.eval l
    let _ ← Action.ask (.context (.push name v))
    Action.ensuring (execAll body l) (do let _ ← Action.ask (.context (.pop name)))
  | .raise f => Action.fail f

def execAll (steps : List Step) (l : Local) : Action Flow :=
  match steps with
  | [] => pure (.go l)
  | s :: rest => do
    match ← s.exec l with
    | .go l => execAll rest l
    | .finish v b => return .finish v b

end

def evaluate (e : Expr) : SessionM Value := fun s =>
  let act : Action (Value × Builder) := do return (← e.eval {}, .empty)
  let (answer, f) := act.toProgram.run { session := s }
  (answer.map (·.1), f.session)

def transformer (name : String) (id : Nat) (steps : List Step) : Transformer :=
  ⟨name, id, transformerRun (execAll steps)⟩

def keywordHandler (name : String) (steps : List Step) : Handler :=
  .program name (keywordRun [] (execAll steps))

def deferredHandler (name : String) (steps : List Step) : Handler :=
  .program name (deferredRun [] (execAll steps))

end LuaExpander.Script
