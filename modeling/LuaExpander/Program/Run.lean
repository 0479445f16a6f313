import LuaExpander.Session

/-! Running a program on a session. Only programs called without arguments and keyword handlers have
a reader for the tokens to come. -/
namespace LuaExpander

structure Frame where
  session : Session
  reader : Option Reader := none

namespace Frame

/- A change of the session is kept when the operation fails. -/
def inSession (act : SessionM α) (f : Frame) : Except Failure α × Frame :=
  let (answer, session) := act.run.run f.session
  (answer, { f with session })

def reading (what : String) (act : ReaderM α) (f : Frame) : Except Failure α × Frame :=
  match f.reader with
  | some r =>
    let (answer, r) := act.run.run r
    (answer, { f with reader := some r })
  | none => (.error (.fault (.noReader what)), f)

def answer (f : Frame) : (q : Query) → Except Failure q.Answer × Frame
  | .read op => f.reading op.word (Reader.perform op)
  | .taken => f.reading "taken" (do return (← get).taken.toList)
  | .depth => (.ok f.session.blocks.depth, f)
  | .unitName => (.ok f.session.unitName, f)
  | .isDefined name => (.ok (f.session.registry.isDefined name), f)
  | .define spec value line =>
    f.inSession (do let _ ← Session.declare spec (value.map .value) true line)
  | .scope spec value => f.inSession (do let _ ← Session.scope spec (value.map .value))
  | .undefine name => (.ok (), { f with session := f.session.undefine name })
  | .context op => f.inSession (Session.context op)
  | .note value => (.ok (), { f with session.notes := f.session.notes.push value })
  | .ticket =>
    let (n, session) := f.session.ticket
    (.ok n, { f with session })

def bind (life : Lifetime) (spec : String) (t : Transformer) : SessionM Unit := do
  match life with
  | .lasting => let _ ← Session.declare spec (some (.callable t))
  | .block => let _ ← Session.scope spec (some (.callable t))

end Frame

namespace Program

def run : Program → Frame → Except Failure (Value × Builder) × Frame
  | done result built, f => (.ok (result, built), f)
  | fail failure, f => (.error failure, f)
  | ask q next, f =>
    let (answer, f) := f.answer q
    (next answer).run f
  | define life spec name id body next, f =>
    let (answer, f) := f.inSession (Frame.bind life spec ⟨name, id, body⟩)
    (next answer).run f
  | defer depth name body next, f =>
    let (answer, f) := f.inSession (Session.defer (.program name body) depth)
    (next answer).run f
  | onKeyword word name body next, f =>
    let session := f.session.onKeyword word (.program name body)
    (next (.ok ())).run { f with session }

end Program

end LuaExpander
