import LuaExpander.Expansion

/-! What can be done with a session from outside. An operation that writes to the log fails, with
its work done, if nothing can be written to it; the log itself is then left as it was. Writing out
the log is up to the caller. -/
namespace LuaExpander.Session

inductive Operation where
  | define (spec : String) (meaning : Option Definition.Meaning) (warn : Bool) (line : Line)
  | undefine (name : String)
  | scope (name : String) (meaning : Option Definition.Meaning)
  | defer (handler : Handler) (depth : Option Int)
  | onKeyword (word : String) (handler : Handler)
  | context (op : ContextOp)
  | report (severity : Severity) (unitName : Option UnitName) (line : Line) (message : String)
  | reset
  | expand (steps : Nat) (source : Source) (unitName : Option String)

inductive Answer where
  | done
  | defined (d : Definition)
  | value (v : Value)
  | tokens (ts : List Token)
  | refused (why : Failure)
  | stopped (why : Stop)

def Answer.of {ε α : Type} (good : α → Answer) (bad : ε → Answer) : Except ε α → Answer
  | .ok a => good a
  | .error e => bad e

variable {α : Type}

def attempt (act : SessionM α) (good : α → Answer) (s : Session) : Answer × Session :=
  let (answer, s) := act.run.run s
  (.of good .refused answer, s)

/- An operation that writes to the log at its end. -/
def logging (act : SessionM α) (good : α → Answer) (s : Session) : Answer × Session :=
  if s.cannotLog then
    let (answer, after) := act.run.run { s with log := none }
    (.of (fun _ => .refused (.fault (.notAPath "int"))) .refused answer, { after with log := s.log })
  else s.attempt act good

def isLogged : ContextOp → Bool
  | .push _ _ | .update _ _ | .pop _ => true
  | .valueOf _ | .isActive _ | .depth _ | .reset => false

def operate : Operation → Session → Answer × Session
  | .define spec meaning warn line, s => s.logging (declare spec meaning warn line) .defined
  | .undefine name, s => (.done, s.undefine name)
  -- A scope whose definition cannot be written down is not arranged to end.
  | .scope name meaning, s =>
    if s.cannotLog then s.logging (Session.define name meaning false) .defined
    else s.attempt (scope name meaning) .defined
  | .defer handler depth, s => s.attempt (defer handler depth) fun _ => .done
  | .onKeyword word handler, s => (.done, s.onKeyword word handler)
  | .context op, s =>
    if isLogged op then s.logging (context op) .value else s.attempt (context op) .value
  | .report severity unitName line message, s =>
    if s.cannotReport unitName then (.refused (.fault (.notAPath "int")), s)
    else (.done, s.report severity unitName line message)
  | .reset, s => (.done, s.reset)
  | .expand steps source unitName, s =>
    let (answer, s) := s.expandUnit steps source unitName
    (.of .tokens .stopped answer, s)

/- The answer of each operation, and the session after it. -/
def history : List Operation → Session → List (Answer × Session)
  | [], _ => []
  | op :: ops, s => s.operate op :: history ops (s.operate op).2

end LuaExpander.Session
