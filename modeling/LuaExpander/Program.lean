import LuaExpander.Value

/-! Programs that take part in an expansion: transformers, which replace a name, and handlers, which
fire at block keywords. A program is a tree of questions. It sees the answers and nothing else, goes
on as it likes after a failure, and ends with a value or a failure of its own. -/
namespace LuaExpander

inductive ContextOp where
  | push (name : String) (value : Value)
  | update (name : String) (value : Value)
  | pop (name : String)
  | valueOf (name : String)
  | isActive (name : String)
  | depth (name : String)
  | reset
  deriving Repr

inductive Query where
  | read (op : Reader.Op)
  | taken
  | depth
  | unitName
  | isDefined (name : String)
  | define (spec : String) (value : Option Value) (line : Line)
  | scope (spec : String) (value : Option Value)
  | undefine (name : String)
  | context (op : ContextOp)
  | note (value : Value)
  | ticket
  deriving Repr

abbrev Query.Answer : Query → Type
  | .read op => op.Answer
  | .taken => List Token
  | .depth => Nat
  | .unitName => Option UnitName
  | .isDefined _ => Bool
  | .define _ _ _ | .scope _ _ | .undefine _ | .note _ => Unit
  | .context _ => Value
  | .ticket => Nat

inductive Call where
  | bare (origin : Token)
  | applied (args : List (List Token))
  deriving Repr

inductive Lifetime where
  | lasting
  | block
  deriving DecidableEq, Repr

inductive Program where
  | done (result : Value) (built : Builder)
  | fail (failure : Failure)
  | ask (q : Query) (next : Except Failure q.Answer → Program)
  -- Defines a name with a transformer, called `name`; `id` tells it from all others.
  | define (life : Lifetime) (spec name : String) (id : Nat) (run : Call → Program)
      (next : Except Failure Unit → Program)
  | defer (depth : Option Int) (name : String) (run : Token → Program)
      (next : Except Failure Unit → Program)
  | onKeyword (word name : String) (run : Token → Program) (next : Except Failure Unit → Program)

structure Transformer where
  name : String
  id : Nat
  run : Call → Program

inductive Handler where
  | program (name : String) (run : Token → Program)
  | restore (subject : String) (height : Nat)

def Handler.name : Handler → String
  | .program name _ => name
  | .restore _ _ => "restore"

/- Part of a program that answers an `α`: it is told how to go on with it, and how to go on after a
failure. -/
def Action (α : Type) : Type := (α → Program) → (Failure → Program) → Program

namespace Action

variable {α β : Type}

def pure (a : α) : Action α := fun next _ => next a

def bind (act : Action α) (f : α → Action β) : Action β :=
  fun next failed => act (fun a => f a next failed) failed

instance : Monad Action where
  pure := Action.pure
  bind := Action.bind

def fail (f : Failure) : Action α := fun _ failed => failed f

def error (cause : Cause) (place : Option Token) : Action α :=
  fail (.error ⟨cause, place.bind (·.line), none⟩)

def ask (q : Query) : Action q.Answer := fun next failed =>
  .ask q fun
    | .ok a => next a
    | .error f => failed f

def read (op : Reader.Op) : Action op.Answer := ask (.read op)

def settle (next : Unit → Program) (failed : Failure → Program) : Except Failure Unit → Program
  | .ok () => next ()
  | .error f => failed f

def define (life : Lifetime) (spec : String) (t : Transformer) : Action Unit :=
  fun next failed => .define life spec t.name t.id t.run (settle next failed)

def defer (depth : Option Int) (name : String) (run : Token → Program) : Action Unit :=
  fun next failed => .defer depth name run (settle next failed)

def onKeyword (word name : String) (run : Token → Program) : Action Unit :=
  fun next failed => .onKeyword word name run (settle next failed)

/- Does `last` whether or not `act` fails; a failure of `last` comes before one of `act`. -/
def ensuring (act : Action α) (last : Action Unit) : Action α := fun next failed =>
  act (fun a => last (fun _ => next a) failed) (fun f => last (fun _ => failed f) failed)

def ofExcept : Except Failure α → Action α
  | .ok a => pure a
  | .error f => fail f

def toProgram (act : Action (Value × Builder)) : Program :=
  act (fun r => .done r.1 r.2) .fail

end Action

end LuaExpander
