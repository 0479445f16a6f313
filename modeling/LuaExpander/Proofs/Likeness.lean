import LuaExpander.Proofs.Calls

/-! Runs on states that are alike. Sessions are alike if they differ in their logs only, or not even
in these; cursors are alike in a sense that is left open here. Operations that keep to this sense
have the same answers on states that are alike, and leave states that are alike, up to a point from
which on nothing is said: when the cursor is gone. What the operations of cursors and readers have to
meet carries over to programs, to every part of a scan, and to whole units. -/
namespace LuaExpander

section

variable {σ α β ε : Type} {alike : σ → σ → Prop} {gone : σ → Prop}

structure Parallel (alike : σ → σ → Prop) (gone : σ → Prop) (f : σ → α × σ) : Prop where
  stays {s} : gone s → gone (f s).2
  agrees {s s'} : alike s s' → gone (f s).2 ∨ (f s').1 = (f s).1 ∧ alike (f s).2 (f s').2

namespace Parallel

theorem answer (a : α) : Parallel alike gone fun s => (a, s) where
  stays before := before
  agrees same := .inr ⟨rfl, same⟩

theorem follow {f : σ → α × σ} {g : α → σ → β × σ} (first : Parallel alike gone f)
    (later : ∀ a, Parallel alike gone (g a)) :
    Parallel alike gone fun s => g (f s).1 (f s).2 where
  stays before := (later _).stays (first.stays before)
  agrees same := by
    rcases first.agrees same with lost | ⟨answers, after⟩
    · exact .inl ((later _).stays lost)
    · rw [answers]
      exact (later _).agrees after

theorem ofSame {f g : σ → α × σ} (same : ∀ s, g s = f s) (parallel : Parallel alike gone f) :
    Parallel alike gone g := by
  rwa [funext same]

theorem bind {x : ExceptT ε (StateM σ) α} {f : α → ExceptT ε (StateM σ) β}
    (first : Parallel alike gone x.run.run)
    (later : ∀ a, Parallel alike gone (f a).run.run) : Parallel alike gone (x >>= f).run.run := by
  have both := first.follow (g := fun found s => match found with
    | .ok a => (f a).run.run s
    | .error e => (.error e, s)) (by
      intro found
      cases found with
      | error e => exact answer _
      | ok a => exact later a)
  refine both.ofSame fun s => ?_
  rw [runBind]
  rcases x.run.run s with ⟨e | a, between⟩ <;> rfl

-- What is looked up in the state has to be the same in states that are alike.
theorem get {f : σ → ExceptT ε (StateM σ) α} (same : ∀ {s s'}, alike s s' → f s' = f s)
    (later : ∀ s, Parallel alike gone (f s).run.run) :
    Parallel alike gone (get >>= f).run.run where
  stays {s} before := (later s).stays before
  agrees {s s'} isAlike := by
    have after := (later s).agrees isAlike
    rw [runBind, runBind, runGet, runGet]
    dsimp only
    rwa [same isAlike]

end Parallel

end

namespace Session

variable {α β : Type} {s s' : Session}

def Alike (s s' : Session) : Prop := ∃ log, s' = { s with log }

namespace Alike

theorem refl (s : Session) : s.Alike s := ⟨s.log, rfl⟩

theorem symm (alike : s.Alike s') : s'.Alike s := by
  obtain ⟨log, rfl⟩ := alike
  exact ⟨s.log, rfl⟩

theorem trans {a b c : Session} (first : a.Alike b) (second : b.Alike c) : a.Alike c := by
  obtain ⟨log, rfl⟩ := first
  obtain ⟨last, rfl⟩ := second
  exact ⟨last, rfl⟩

end Alike

def Mute (f : Session → Session) : Prop := ∀ {s s'}, s.Alike s' → (f s).Alike (f s')

def Blind (f : Session → α × Session) : Prop := Parallel Alike (fun _ => False) f

theorem blindOf {f : Session → α × Session}
    (same : ∀ s log, (f { s with log }).1 = (f s).1 ∧ (f s).2.Alike (f { s with log }).2) :
    Blind f where
  stays impossible := impossible
  agrees := by
    rintro s _ ⟨log, rfl⟩
    exact .inr (same s log)

theorem blindModify {f : Session → Session} (mute : Mute f) :
    Blind (modify f : SessionM Unit).run.run :=
  blindOf fun _ log => ⟨rfl, mute ⟨log, rfl⟩⟩

theorem logTextAlike (text : String) (line : Line) (nesting : Nat) (s : Session) :
    s.Alike (s.logText text line nesting) := by
  unfold logText
  split
  · exact .refl s
  · exact ⟨_, rfl⟩

theorem muteOf {f : Session → Session} (logs : ∀ s : Session, s.Alike (f s)) : Mute f := by
  intro s s' alike
  exact (logs s).symm.trans (alike.trans (logs s'))

theorem logTextMute (text : String) (line : Line) (nesting : Nat) :
    Mute (logText text line nesting) := muteOf (logTextAlike text line nesting)

theorem logArgumentsAlike (t : Token) (args : List (String × List Token)) (s : Session) :
    s.Alike (s.logArguments t args) := by
  induction args generalizing s with
  | nil => exact .refl s
  | cons arg rest ih => exact (logTextAlike _ _ _ s).trans (ih _)

theorem logCallAlike (t : Token) (d : Definition) (args : List (List Token)) (s : Session) :
    s.Alike (s.logCall t d args) := (logTextAlike _ _ _ s).trans (logArgumentsAlike t _ _)

theorem logCallMute (t : Token) (d : Definition) (args : List (List Token)) :
    Mute (logCall t d args) := muteOf (logCallAlike t d args)

theorem reportMute (severity : Severity) (unitName : Option UnitName) (line : Line)
    (message : String) : Mute (report severity unitName line message) := by
  rintro s _ ⟨log, rfl⟩
  obtain ⟨first, one⟩ := logTextAlike (severity.word ++ ": " ++ message) line 0 s
  obtain ⟨second, other⟩ := logTextAlike (severity.word ++ ": " ++ message) line 0 { s with log }
  unfold report
  dsimp only
  rw [one, other]
  cases severity <;> exact ⟨second, rfl⟩

theorem installMute (d : Definition) (warn : Bool) : Mute (install d warn) := by
  rintro s _ ⟨log, rfl⟩
  have warned (message : String) :=
    reportMute .warning s.unitName d.line message (s := s) ⟨log, rfl⟩
  have pushed {s s' : Session} (alike : s.Alike s') : Alike { s with registry := s.registry.push d }
      { s' with registry := s'.registry.push d } := by
    obtain ⟨log, rfl⟩ := alike
    exact ⟨log, rfl⟩
  have same : redefines d { s with log } = redefines d s := rfl
  unfold install logDefined
  dsimp only
  rw [same]
  refine logTextMute _ _ _ (pushed ?_)
  split
  · exact warned _
  · exact ⟨log, rfl⟩

theorem restoreMute (name : String) (height : Nat) : Mute (restore name height) := by
  rintro s _ ⟨log, rfl⟩
  unfold restore
  dsimp only
  split
  · unfold logRestored
    dsimp only
    split <;> exact logTextMute _ _ _ ⟨log, rfl⟩
  · exact ⟨log, rfl⟩

theorem defineBlind (spec : String) (meaning : Option Definition.Meaning) (warn : Bool)
    (line : Line) : Blind (define spec meaning warn line).run.run := by
  refine Parallel.get (by rintro s _ ⟨log, rfl⟩; rfl) fun s => ?_
  refine Parallel.bind (Parallel.answer _) fun d => ?_
  exact Parallel.bind (blindModify (installMute _ warn)) fun _ => Parallel.answer _

theorem declareBlind (spec : String) (meaning : Option Definition.Meaning) (warn : Bool)
    (line : Line) : Blind (declare spec meaning warn line).run.run := by
  refine Parallel.get (by rintro s _ ⟨log, rfl⟩; rfl) fun s => ?_
  split
  · exact Parallel.answer _
  · exact defineBlind spec meaning warn line

theorem deferBlind (handler : Handler) (depth : Option Int) :
    Blind (defer handler depth).run.run := by
  refine blindOf fun s log => ?_
  rw [defer, runBind, runBind, runGet, runGet]
  dsimp only
  cases s.blocks.defer handler depth with
  | ok blocks => exact ⟨rfl, log, rfl⟩
  | error f => exact ⟨rfl, log, rfl⟩

theorem scopeBlind (name : String) (meaning : Option Definition.Meaning) :
    Blind (scope name meaning).run.run := by
  refine Parallel.get (by rintro s _ ⟨log, rfl⟩; rfl) fun s => ?_
  refine Parallel.bind (defineBlind _ _ _ _) fun d => ?_
  exact Parallel.bind (deferBlind _ _) fun _ => Parallel.answer _

theorem logContextBlind (name : String) (value : Value) (more : String) :
    Blind (logContext name value more).run.run := by
  unfold logContext
  cases value.describe with
  | ok text => exact blindModify (logTextMute _ _ _)
  | error f => exact Parallel.answer _

theorem contextBlind (op : ContextOp) : Blind (context op).run.run := by
  cases op with
  | push name value =>
    refine Parallel.bind (blindModify ?_) fun _ => ?_
    · rintro s _ ⟨log, rfl⟩
      exact ⟨log, rfl⟩
    · refine Parallel.get (by rintro s _ ⟨log, rfl⟩; rfl) fun s => ?_
      exact Parallel.bind (logContextBlind _ _ _) fun _ => Parallel.answer _
  | update name value =>
    refine blindOf fun s log => ?_
    rw [context, runBind, runBind, runGet, runGet]
    dsimp only
    cases s.contexts.update name value with
    | error f => exact ⟨rfl, log, rfl⟩
    | ok contexts =>
      have later : Blind (logContext name value "" >>= fun _ => pure Value.nothing).run.run :=
        Parallel.bind (logContextBlind _ _ _) fun _ => Parallel.answer _
      exact (later.agrees (s := { s with contexts }) ⟨log, rfl⟩).resolve_left id
  | pop name =>
    refine blindOf fun s log => ?_
    rw [context, runBind, runBind, runGet, runGet]
    dsimp only
    cases s.contexts.pop name with
    | error f => exact ⟨rfl, log, rfl⟩
    | ok popped => exact ⟨rfl, logTextMute _ _ _ ⟨log, rfl⟩⟩
  | valueOf name | isActive name | depth name => exact blindOf fun s log => ⟨rfl, log, rfl⟩
  | reset =>
    refine Parallel.bind (blindModify ?_) fun _ => Parallel.answer _
    rintro s _ ⟨log, rfl⟩
    exact ⟨log, rfl⟩

end Session

section

variable (loud : Prop) (cursors : Cursor → Cursor → Prop) (gone : Cursor → Prop)

def Reader.Alike (r r' : Reader) : Prop :=
  ∃ cursor, cursors r.cursor cursor ∧ r' = { r with cursor }

def Reader.Gone (r : Reader) : Prop := gone r.cursor

/- What is asked of a sense of likeness. -/
structure Likeness : Prop where
  next : Parallel cursors gone Cursor.next
  peek : Parallel cursors gone Cursor.peek
  prepend (ts : List Token) : Parallel cursors gone fun c => ((), c.prepend ts)
  number (fresh : Nat) : Parallel cursors gone fun c => ((), (c.number fresh).1)
  find (t : Token) (r : Registry) : Parallel cursors gone (r.find t)
  read (op : Reader.Op) :
    Parallel (Reader.Alike cursors) (Reader.Gone gone) (Reader.perform op).run.run
  arguments (d : Definition) (params : List String) (t : Token) :
    Parallel (Reader.Alike cursors) (Reader.Gone gone) (d.readArguments params t).run.run

theorem parallelSame {σ α : Type} {alike : σ → σ → Prop} (same : ∀ {s s'}, alike s s' ↔ s' = s)
    (f : σ → α × σ) : Parallel alike (fun _ => False) f where
  stays impossible := impossible
  agrees isAlike := by
    cases same.mp isAlike
    exact .inr ⟨rfl, same.mpr rfl⟩

theorem likenessSame : Likeness (fun c c' => c' = c) fun _ => False := by
  have readers {r r' : Reader} : r.Alike (fun c c' => c' = c) r' ↔ r' = r := by
    constructor
    · rintro ⟨cursor, rfl, rfl⟩
      rfl
    · rintro rfl
      exact ⟨r'.cursor, rfl, rfl⟩
  constructor <;> intros <;> first | exact parallelSame Iff.rfl _ | exact parallelSame readers _

/- If it matters what is logged, the logs are the same. -/
def Session.Like (s s' : Session) : Prop := ∃ log, (loud → log = s.log) ∧ s' = { s with log }

structure Frame.Alike (f f' : Frame) : Prop where
  session : f.session.Like loud f'.session
  reader : Option.Rel (Reader.Alike cursors) f.reader f'.reader

def Frame.Gone (f : Frame) : Prop := ∃ r, f.reader = some r ∧ gone r.cursor

def Scan.Alike (s s' : Scan) : Prop :=
  ∃ session cursor, s.session.Like loud session ∧ cursors s.cursor cursor ∧
    s' = { s with session, cursor }

def Scan.Gone (s : Scan) : Prop := gone s.cursor

end

variable {α β : Type} {loud : Prop} {cursors : Cursor → Cursor → Prop} {gone : Cursor → Prop}

namespace Session

variable {s s' : Session}

theorem Like.refl (s : Session) : s.Like loud s := ⟨s.log, fun _ => rfl, rfl⟩

theorem Like.alike (like : s.Like loud s') : s.Alike s' := by
  obtain ⟨log, -, rfl⟩ := like
  exact ⟨log, rfl⟩

theorem likeOf (alike : s.Alike s') (same : loud → s' = s) : s.Like loud s' := by
  obtain ⟨log, rfl⟩ := alike
  exact ⟨log, fun isLoud => congrArg Session.log (same isLoud), rfl⟩

theorem Like.same (like : s.Like loud s') (isLoud : loud) : s' = s := by
  obtain ⟨log, same, rfl⟩ := like
  rw [same isLoud]

-- An operation on a session that goes by nothing but the session does the same on the same one.
theorem Blind.like {f : Session → α × Session} (blind : Blind f) (like : s.Like loud s') :
    (f s').1 = (f s).1 ∧ (f s).2.Like loud (f s').2 := by
  obtain ⟨same, after⟩ := (blind.agrees like.alike).resolve_left id
  exact ⟨same, likeOf after fun isLoud => by rw [like.same isLoud]⟩

theorem Mute.like {f : Session → Session} (mute : Mute f) (like : s.Like loud s') :
    (f s).Like loud (f s') :=
  likeOf (mute like.alike) fun isLoud => by rw [like.same isLoud]

end Session

namespace Frame

theorem ofSession {g : Session → α × Session} (blind : Session.Blind g) :
    Parallel (Alike loud cursors) (Gone gone)
      fun f => ((g f.session).1, { f with session := (g f.session).2 }) where
  stays lost := lost
  agrees alike := by
    obtain ⟨same, after⟩ := blind.like alike.session
    exact .inr ⟨same, after, alike.reader⟩

theorem ofStep (view : Session → α) (change : Session → Session)
    (same : ∀ s log, view { s with log } = view s ∧ (change s).Alike (change { s with log })) :
    Parallel (Alike loud cursors) (Gone gone) fun f =>
      ((.ok (view f.session) : Except Failure α), { f with session := change f.session }) := by
  have blind : Session.Blind fun s => ((.ok (view s) : Except Failure α), change s) :=
    Session.blindOf fun s log => ⟨congrArg Except.ok (same s log).1, (same s log).2⟩
  exact ofSession blind

theorem ofReader {act : ReaderM α} (what : String)
    (parallel : Parallel (Reader.Alike cursors) (Reader.Gone gone) act.run.run) :
    Parallel (Alike loud cursors) (Gone gone) (reading what act) where
  stays := by
    rintro f ⟨r, isReader, lost⟩
    have after := parallel.stays lost
    unfold reading
    rw [isReader]
    exact ⟨_, rfl, after⟩
  agrees := by
    rintro ⟨session, reader⟩ ⟨session', reader'⟩ ⟨sessions, readers⟩
    cases readers with
    | none => exact .inr ⟨rfl, sessions, .none⟩
    | some alike =>
      rcases parallel.agrees alike with lost | ⟨same, after⟩
      · exact .inl ⟨_, rfl, lost⟩
      · exact .inr ⟨same, sessions, .some after⟩

theorem bindBlind (life : Lifetime) (spec : String) (t : Transformer) :
    Session.Blind (Frame.bind life spec t).run.run := by
  cases life with
  | lasting => exact Parallel.bind (Session.declareBlind _ _ _ _) fun _ => Parallel.answer _
  | block => exact Parallel.bind (Session.scopeBlind _ _) fun _ => Parallel.answer _

variable (like : Likeness cursors gone)
include like

theorem answerParallel (q : Query) :
    Parallel (Alike loud cursors) (Gone gone) fun f => f.answer q := by
  cases q with
  | read op => exact ofReader op.word (like.read op)
  | taken =>
    refine ofReader "taken" (Parallel.get ?_ fun r => Parallel.answer _)
    rintro r _ ⟨cursor, -, rfl⟩
    rfl
  | depth => exact ofStep (·.blocks.depth) id fun _ log => ⟨rfl, log, rfl⟩
  | unitName => exact ofStep (·.unitName) id fun _ log => ⟨rfl, log, rfl⟩
  | isDefined name => exact ofStep (·.registry.isDefined name) id fun _ log => ⟨rfl, log, rfl⟩
  | define spec value line =>
    exact ofSession (Parallel.bind (Session.declareBlind _ _ _ _) fun _ => Parallel.answer _)
  | scope spec value =>
    exact ofSession (Parallel.bind (Session.scopeBlind _ _) fun _ => Parallel.answer _)
  | undefine name => exact ofStep (fun _ => ()) (·.undefine name) fun _ log => ⟨rfl, log, rfl⟩
  | context op => exact ofSession (Session.contextBlind op)
  | note value =>
    exact ofStep (fun _ => ()) (fun s => { s with notes := s.notes.push value })
      fun _ log => ⟨rfl, log, rfl⟩
  | ticket => exact ofStep (·.ticket.1) (·.ticket.2) fun _ log => ⟨rfl, log, rfl⟩

end Frame

section

variable (like : Likeness cursors gone)
include like

theorem Program.runParallel (p : Program) :
    Parallel (Frame.Alike loud cursors) (Frame.Gone gone) p.run := by
  induction p with
  | done result built => exact Parallel.answer _
  | fail failure => exact Parallel.answer _
  | ask q next ih => exact (Frame.answerParallel like q).follow fun answer => ih answer
  | define life spec name id body next _ ih =>
    exact (Frame.ofSession (Frame.bindBlind life spec ⟨name, id, body⟩)).follow
      fun answer => ih answer
  | defer depth name body next _ ih =>
    exact (Frame.ofSession (Session.deferBlind (.program name body) depth)).follow
      fun answer => ih answer
  | onKeyword word name body next _ ih =>
    exact (Frame.ofStep (fun _ => ()) (·.onKeyword word (.program name body))
      fun _ log => ⟨rfl, log, rfl⟩).follow fun answer => ih answer

end

/-! Scans -/

theorem Cursor.ofReader {act : ReaderM α}
    (parallel : Parallel (Reader.Alike cursors) (Reader.Gone gone) act.run.run)
    (origin : Option Token) :
    Parallel cursors gone fun c =>
      (((act.run.run { cursor := c, origin }).1, (act.run.run { cursor := c, origin }).2.taken),
        (act.run.run { cursor := c, origin }).2.cursor) where
  stays lost := parallel.stays lost
  agrees {c c'} related := by
    rcases parallel.agrees (s := { cursor := c, origin }) ⟨c', related, rfl⟩ with
      lost | ⟨same, cursor, after, whole⟩
    · exact .inl lost
    · dsimp only at whole ⊢
      rw [whole]
      exact .inr ⟨Prod.ext same rfl, after⟩

namespace Scan

def Tracks (loud : Prop) (cursors : Cursor → Cursor → Prop) (gone : Cursor → Prop)
    (act : ScanM α) : Prop :=
  Parallel (Alike loud cursors) (Gone gone) act.run.run

theorem ofSession {g : Session → α × Session} (blind : Session.Blind g) :
    Parallel (Alike loud cursors) (Gone gone)
      fun s => ((g s.session).1, { s with session := (g s.session).2 }) where
  stays lost := lost
  agrees := by
    rintro s _ ⟨session, cursor, like, related, rfl⟩
    obtain ⟨same, after⟩ := blind.like like
    exact .inr ⟨same, _, cursor, after, related, rfl⟩

theorem ofCursor {g : Cursor → α × Cursor} (parallel : Parallel cursors gone g) :
    Parallel (Alike loud cursors) (Gone gone)
      fun s => ((g s.cursor).1, { s with cursor := (g s.cursor).2 }) where
  stays lost := parallel.stays lost
  agrees := by
    rintro s _ ⟨session, cursor, like, related, rfl⟩
    rcases parallel.agrees related with lost | ⟨same, after⟩
    · exact .inl lost
    · exact .inr ⟨same, session, _, like, after, rfl⟩

/- What a program sees of a scan. -/
def opened (reads : Bool) (origin : Token) (s : Scan) : Frame :=
  { session := s.session
    reader := if reads then some { cursor := s.cursor, origin := some origin } else none }

theorem openedAlike (reads : Bool) (origin : Token) {s s' : Scan} (alike : s.Alike loud cursors s') :
    Frame.Alike loud cursors (s.opened reads origin) (s'.opened reads origin) := by
  obtain ⟨session, cursor, like, related, rfl⟩ := alike
  refine ⟨like, ?_⟩
  cases reads with
  | false => exact .none
  | true => exact .some ⟨cursor, related, rfl⟩

def closed (f : Frame) (s : Scan) : Scan :=
  { s with session := f.session, cursor := (f.reader.map (·.cursor)).getD s.cursor }

theorem closedAlike {f f' : Frame} (frames : f.Alike loud cursors f') {s s' : Scan}
    (alike : s.Alike loud cursors s') :
    f'.reader.map (·.taken) = f.reader.map (·.taken) ∧
      (s.closed f).Alike loud cursors (s'.closed f') := by
  obtain ⟨session, reader⟩ := f
  obtain ⟨session', reader'⟩ := f'
  obtain ⟨between, cursor, -, related, rfl⟩ := alike
  obtain ⟨like, readers⟩ := frames
  cases readers with
  | none => exact ⟨rfl, session', cursor, like, related, rfl⟩
  | some alike =>
    obtain ⟨cursor', related', rfl⟩ := alike
    exact ⟨rfl, session', cursor', like, related', rfl⟩

theorem ofFrame {g : Frame → α × Frame}
    (parallel : Parallel (Frame.Alike loud cursors) (Frame.Gone gone) g)
    (readerless : ∀ {f}, f.reader = none → (g f).2.reader = none) (reads : Bool) (origin : Token) :
    Parallel (Alike loud cursors) (Gone gone) fun s =>
      (((g (s.opened reads origin)).1, (g (s.opened reads origin)).2.reader.map (·.taken)),
        s.closed (g (s.opened reads origin)).2) where
  stays {s} lost := by
    cases reads with
    | false =>
      have none := @readerless (s.opened false origin) rfl
      simpa [Gone, closed, none] using lost
    | true =>
      obtain ⟨r, isReader, still⟩ :=
        parallel.stays (s := s.opened true origin) ⟨_, rfl, lost⟩
      simpa [Gone, closed, isReader] using still
  agrees {s s'} alike := by
    rcases parallel.agrees (openedAlike reads origin alike) with
      ⟨r, isReader, lost⟩ | ⟨same, after⟩
    · exact .inl (by simpa [Gone, closed, isReader] using lost)
    · obtain ⟨taken, closes⟩ := closedAlike after alike
      exact .inr ⟨Prod.ext same taken, closes⟩

theorem tracksLift (answer : Except Error α) : Tracks loud cursors gone (liftBlocks answer) := by
  cases answer with
  | error e => exact Parallel.answer _
  | ok a => exact Parallel.answer _

theorem tracksInSession {f : Session → Session} (mute : Session.Mute f) :
    Tracks loud cursors gone (inSession f) where
  stays lost := lost
  agrees := by
    rintro s _ ⟨session, cursor, like, related, rfl⟩
    exact .inr ⟨rfl, _, cursor, mute.like like, related, rfl⟩

theorem tracksEmit (t : Token) : Tracks loud cursors gone (emit t) where
  stays lost := lost
  agrees := by
    rintro s _ ⟨session, cursor, like, related, rfl⟩
    exact .inr ⟨rfl, session, cursor, like, related, rfl⟩

theorem tracksExpanded {expand : ArgumentExpander} {rest : List (List Token)}
    (others : Tracks loud cursors gone (expandArguments expand rest))
    (answer : Except Stop (List Token)) :
    Tracks loud cursors gone (match answer with
      | .ok ts => do return ts :: (← expandArguments expand rest)
      | .error e => throw e) := by
  cases answer with
  | error e => exact Parallel.answer _
  | ok ts => exact Parallel.bind others fun _ => Parallel.answer _

theorem tracksExpandArguments {expand : ArgumentExpander}
    (blind : ∀ arg, Session.Blind (expand arg)) (args : List (List Token)) :
    Tracks loud cursors gone (expandArguments expand args) := by
  induction args with
  | nil => exact Parallel.answer _
  | cons arg rest ih =>
    refine ((ofSession (blind arg)).follow (tracksExpanded ih)).ofSame fun s => ?_
    rw [expandArguments, runBind, runGet]
    rfl

theorem leaveBlockBlind (t : Token) : Session.Blind fun s => match s.leaveBlock t with
    | .ok (handlers, s') => ((.ok handlers : Except Error (List Handler)), s')
    | .error e => (.error e, s) := by
  refine Session.blindOf fun s log => ?_
  unfold Session.leaveBlock
  cases s.blocks.leave t with
  | error e => exact ⟨rfl, log, rfl⟩
  | ok left =>
    obtain ⟨last, logged⟩ := Session.logTextMute (s := s) _ t.line 0 ⟨log, rfl⟩
    exact ⟨rfl, last, congrArg (fun s : Session => { s with blocks := left.2 }) logged⟩

section

variable (like : Likeness cursors gone)
include like

theorem tracksNext : Tracks loud cursors gone nextToken := by
  have later (answer : Except Error (Option Token)) : Tracks loud cursors gone (liftBlocks answer) :=
    tracksLift answer
  refine ((ofCursor like.next).follow later).ofSame fun s => ?_
  rw [nextToken, runBind, runGet]
  dsimp only
  rcases s.cursor.next with ⟨e | t, cursor⟩ <;> rfl

theorem tracksPrepend (ts : List Token) : Tracks loud cursors gone (prepend ts) := by
  refine ((ofCursor (like.prepend ts)).follow fun _ => Parallel.answer (.ok ())).ofSame fun s => ?_
  rfl

theorem tracksNumber : Tracks loud cursors gone number where
  stays {s} lost := (like.number s.session.fresh).stays lost
  agrees := by
    rintro s _ ⟨session, cursor, ⟨log, same, rfl⟩, related, rfl⟩
    rcases (like.number s.session.fresh).agrees related with lost | ⟨-, after⟩
    · exact .inl lost
    · exact .inr ⟨rfl, _, _, ⟨log, same, rfl⟩, after, rfl⟩

omit like in
theorem tracksNumberArguments (args : List (List Token)) :
    Tracks loud cursors gone (numberArguments args) where
  stays {s} lost := by
    rw [numberArgumentsRuns]
    exact lost
  agrees := by
    rintro s _ ⟨session, cursor, ⟨log, same, rfl⟩, related, rfl⟩
    rw [numberArgumentsRuns, numberArgumentsRuns]
    exact .inr ⟨rfl, _, cursor, ⟨log, same, rfl⟩, related, rfl⟩

theorem tracksReadArguments (d : Definition) (nameToken : Token) :
    Tracks loud cursors gone (readArguments d nameToken) := by
  unfold readArguments
  cases d.params with
  | none => exact Parallel.answer _
  | some params =>
    have read := Cursor.ofReader (like.arguments d params nameToken) (some nameToken)
    refine ((ofCursor read).follow (g := fun found s => ((found.1.map fun args => (args, found.2)).mapError
      .failed, s)) fun _ => Parallel.answer _).ofSame fun s => ?_
    dsimp only
    rw [runBind, runGet]
    dsimp only
    rcases (d.readArguments params nameToken).run.run
      { cursor := s.cursor, origin := some nameToken } with ⟨f | args, reader⟩ <;> rfl

omit like in
theorem handlerAnswered (name : String) (t : Token) (answer : Except Failure (Value × Builder)) :
    Parallel (Frame.Alike loud cursors) (Frame.Gone gone) fun f =>
      match answer >>= fun r => r.1.toTokens t.line with
      | .ok ts => ((.ok (ts.map (place t)) : Except Error (List Token)), f)
      | .error (.error e) => (.error e, f)
      | .error (.fault x) => (.error (.atToken (.handlerFailed name x) t), f) := by
  rcases answer >>= fun r => r.1.toTokens t.line with (e | x) | ts <;> exact Parallel.answer _

theorem runHandlerParallel (h : Handler) (t : Token) :
    Parallel (Frame.Alike loud cursors) (Frame.Gone gone) (runHandler h t) := by
  cases h with
  | restore subject height =>
    refine Frame.ofSession (g := fun s => ((.ok [] : Except Error (List Token)),
      s.restore subject height)) ?_
    exact Session.blindOf fun _ log => ⟨rfl, Session.restoreMute subject height ⟨log, rfl⟩⟩
  | program name run =>
    exact (Program.runParallel like (run t)).follow (handlerAnswered name t)

omit like in
theorem handlersJoined {t : Token} {hs : List Handler}
    (others : Parallel (Frame.Alike loud cursors) (Frame.Gone gone) (runHandlers t hs))
    (found : Except Error (List Token)) :
    Parallel (Frame.Alike loud cursors) (Frame.Gone gone) fun f => match found with
      | .error e => ((.error e : Except Error (List Token)), f)
      | .ok ts => ((runHandlers t hs f).1.map (ts ++ ·), (runHandlers t hs f).2) := by
  cases found with
  | error e => exact Parallel.answer _
  | ok ts =>
    exact others.follow (g := fun more f => (more.map (ts ++ ·), f)) fun _ => Parallel.answer _

theorem runHandlersParallel (t : Token) (handlers : List Handler) :
    Parallel (Frame.Alike loud cursors) (Frame.Gone gone) (runHandlers t handlers) := by
  induction handlers with
  | nil => exact Parallel.answer _
  | cons h hs ih =>
    refine ((runHandlerParallel like h t).follow (handlersJoined ih)).ofSame fun f => ?_
    rw [runHandlers]
    rcases runHandler h t f with ⟨e | ts, g⟩
    · rfl
    · dsimp only
      rcases runHandlers t hs g with ⟨e | more, g'⟩ <;> rfl

omit like in
theorem runHandlersReaderless (t : Token) (handlers : List Handler) {f : Frame}
    (readerless : f.reader = none) : (runHandlers t handlers f).2.reader = none := by
  induction handlers generalizing f with
  | nil => exact readerless
  | cons h hs ih =>
    have first : (runHandler h t f).2.reader = none := by
      cases h with
      | restore subject height => exact readerless
      | program name run =>
        have after := (run t).runReaderless readerless
        unfold runHandler
        dsimp only
        split <;> exact after
    rw [runHandlers]
    rcases ran : runHandler h t f with ⟨e | ts, g⟩
    · rw [ran] at first
      exact first
    · rw [ran] at first
      have after := ih first
      dsimp only
      rcases later : runHandlers t hs g with ⟨e | more, g'⟩
      · rw [later] at after
        exact after
      · rw [later] at after
        exact after

theorem tracksFired (found : Except Error (List Token) × Option (Array Token)) :
    Tracks loud cursors gone (match found.1 with
      | .ok ts => prepend ts
      | .error e => throw (.failed e)) := by
  rcases found with ⟨e | ts, taken⟩
  · exact Parallel.answer _
  · exact tracksPrepend like ts

theorem tracksFire (handlers : List Handler) (t : Token) (reads : Bool) :
    Tracks loud cursors gone (fire handlers t reads) := by
  refine ((ofFrame (runHandlersParallel like t handlers)
    (runHandlersReaderless t handlers) reads t).follow (tracksFired like)).ofSame fun s => ?_
  rw [fire, runBind, runGet]
  rfl

theorem tracksFireKeyword (word : String) (t : Token) :
    Tracks loud cursors gone (fireKeyword word t) := by
  refine Parallel.get (by rintro s _ ⟨_, cursor, ⟨log, -, rfl⟩, -, rfl⟩; rfl) fun s => ?_
  dsimp only
  split
  · exact Parallel.answer _
  · exact Parallel.bind (tracksNumber like) fun _ => tracksFire like _ t true

omit like in
theorem tracksResult (d : Definition) (nameToken : Token) (taken : Array Token)
    (found : Except Failure (Value × Builder) × Option (Array Token)) :
    Tracks loud cursors gone (match found.1 >>= fun r => (callResult d r).toTokens with
      | .ok ts => return ts.map (settle (found.2.getD taken) d.name nameToken.line)
      | .error failure => throw (.failed (callError d nameToken failure))) := by
  rcases found.1 >>= fun r => (callResult d r).toTokens with failure | ts <;>
    exact Parallel.answer _

theorem tracksCallTransformer (d : Definition) (t : Transformer) (nameToken : Token)
    (args : List (List Token)) (taken : Array Token) :
    Tracks loud cursors gone (callTransformer d t nameToken args taken) := by
  have called := @Program.runParallel loud _ _ like
    (t.run (if d.isFunction then .applied args else .bare nameToken))
  refine ((ofFrame called (Program.runReaderless _) (!d.isFunction) nameToken).follow
    (tracksResult d nameToken taken)).ofSame fun s => ?_
  have frame : s.opened (!d.isFunction) nameToken =
      { session := s.session
        reader := if d.isFunction then none
          else some { cursor := s.cursor, origin := some nameToken } } := by
    cases d.isFunction <;> rfl
  rw [callTransformer, runBind, runGet, frame]
  rfl

theorem tracksReplacement {expand : ArgumentExpander} (blind : ∀ arg, Session.Blind (expand arg))
    (d : Definition) (nameToken : Token) :
    Tracks loud cursors gone (replacement expand d nameToken) := by
  unfold replacement
  cases d.body with
  | text value =>
    refine Parallel.bind (tracksReadArguments like d nameToken) fun _ => ?_
    refine Parallel.bind (tracksNumberArguments _) fun _ => ?_
    exact Parallel.bind (tracksInSession (Session.logCallMute nameToken d _))
      fun _ => Parallel.answer _
  | callable t =>
    refine Parallel.bind (tracksNumber like) fun _ => ?_
    refine Parallel.bind (tracksReadArguments like d nameToken) fun _ => ?_
    refine Parallel.bind (tracksExpandArguments blind _) fun _ => ?_
    refine Parallel.bind (tracksInSession (Session.logCallMute nameToken d _)) fun _ => ?_
    exact tracksCallTransformer like d t nameToken _ _

omit like in
theorem logHeldAlike (t : Token) (n : Nat) (s : Session) : s.Alike (logHeld t n s) := by
  induction n generalizing s with
  | zero => exact .refl s
  | succ n ih => exact (Session.logTextAlike _ _ _ s).trans (ih _)

omit like in
theorem logHeldMute (t : Token) (n : Nat) : Session.Mute (logHeld t n) :=
  Session.muteOf (logHeldAlike t n)

theorem findParallel (t : Token) : Parallel (Alike loud cursors) (Gone gone) fun s =>
    ((s.session.registry.find t s.cursor).1,
      { s with cursor := (s.session.registry.find t s.cursor).2 }) where
  stays {s} lost := (like.find t s.session.registry).stays lost
  agrees := by
    rintro s _ ⟨session, cursor, ⟨log, alike, rfl⟩, related, rfl⟩
    rcases (like.find t s.session.registry).agrees related with lost | ⟨same, after⟩
    · exact .inl lost
    · exact .inr ⟨same, _, _, ⟨log, alike, rfl⟩, after, rfl⟩

theorem tracksFound {expand : ArgumentExpander} (blind : ∀ arg, Session.Blind (expand arg))
    (t : Token) (answer : Except Error Registry.Search) : Tracks loud cursors gone (do
      let search ← liftBlocks answer
      inSession (logHeld t search.held)
      match search.found with
      | none => emit t
      | some m =>
        let ts ← replacement expand m.definition m.nameToken
        inSession (·.logReplaced m.nameToken ts)
        prepend ts) := by
  refine Parallel.bind (tracksLift answer) fun search => ?_
  refine Parallel.bind (tracksInSession (logHeldMute t _)) fun _ => ?_
  cases search.found with
  | none => exact tracksEmit t
  | some m =>
    refine Parallel.bind (tracksReplacement like blind _ _) fun ts => ?_
    exact Parallel.bind (tracksInSession (Session.logTextMute _ _ _)) fun _ =>
      tracksPrepend like ts

theorem tracksPlain {expand : ArgumentExpander} (blind : ∀ arg, Session.Blind (expand arg))
    (t : Token) : Tracks loud cursors gone (plain expand t) := by
  refine ((findParallel like t).follow (tracksFound like blind t)).ofSame fun s => ?_
  rw [plain, runBind, runGet]
  rfl

omit like in
theorem enterBlockMute (t : Token) : Session.Mute (·.enterBlock t) := by
  rintro s _ ⟨log, rfl⟩
  exact Session.logTextMute _ _ _ ⟨log, rfl⟩

theorem tracksCloseBlock (t : Token) : Tracks loud cursors gone (closeBlock t) := by
  have later (answer : Except Error (List Handler)) : Tracks loud cursors gone (do
      let handlers ← liftBlocks answer
      fireDeferred handlers t
      fireKeyword t.value t) := by
    refine Parallel.bind (tracksLift answer) fun handlers => ?_
    exact Parallel.bind (tracksFire like handlers t false) fun _ => tracksFireKeyword like _ t
  refine ((ofSession (leaveBlockBlind t)).follow later).ofSame fun s => ?_
  rw [closeBlock, runBind, runGet]
  dsimp only
  cases s.session.leaveBlock t with
  | error e => rfl
  | ok left => rfl

theorem tracksKeyword (t : Token) : Tracks loud cursors gone (keyword t) := by
  refine Parallel.bind (tracksEmit t) fun _ => ?_
  refine Parallel.get (by rintro s _ ⟨_, cursor, ⟨log, -, rfl⟩, -, rfl⟩; rfl) fun s => ?_
  split
  · exact Parallel.answer _
  · split
    · exact Parallel.bind (tracksInSession (enterBlockMute t)) fun _ => tracksFireKeyword like _ t
    · split
      · exact tracksCloseBlock like t
      · exact tracksFireKeyword like _ t

omit like in
theorem tracksFinishing : Tracks loud cursors gone (modify fun s => { s with finishing := true }) where
  stays lost := lost
  agrees := by
    rintro s _ ⟨session, cursor, like, related, rfl⟩
    exact .inr ⟨rfl, session, cursor, like, related, rfl⟩

theorem tracksFinish (t : Token) : Tracks loud cursors gone (do
    let s ← get
    if s.finishing then do
      liftBlocks (s.session.blocks.checkFinished t)
      emit t
      return true
    else do
      modify fun s => { s with finishing := true }
      let (handlers, blocks) ← liftBlocks (s.session.blocks.finish t)
      inSession fun s => { s with blocks }
      prepend [t]
      fireKeyword "END" t
      fireDeferred handlers t
      return false) := by
  refine Parallel.get (by rintro s _ ⟨_, cursor, ⟨log, -, rfl⟩, -, rfl⟩; rfl) fun s => ?_
  split
  · refine Parallel.bind (tracksLift _) fun _ => ?_
    exact Parallel.bind (tracksEmit t) fun _ => Parallel.answer _
  · refine Parallel.bind tracksFinishing fun _ => ?_
    refine Parallel.bind (tracksLift _) fun _ => ?_
    refine Parallel.bind (tracksInSession ?_) fun _ => ?_
    · rintro s _ ⟨log, rfl⟩
      exact ⟨log, rfl⟩
    refine Parallel.bind (tracksPrepend like [t]) fun _ => ?_
    refine Parallel.bind (tracksFireKeyword like "END" t) fun _ => ?_
    exact Parallel.bind (tracksFire like _ t false) fun _ => Parallel.answer _

theorem tracksAtEnd (t : Token) : Tracks loud cursors gone (atEnd t) := by
  refine (tracksFinish like t).ofSame fun s => ?_
  rw [atEnd, runBind, runGet, runBind, runGet]
  dsimp only
  split <;> rfl

theorem tracksStep {expand : ArgumentExpander} (blind : ∀ arg, Session.Blind (expand arg)) :
    Tracks loud cursors gone (step expand) := by
  refine Parallel.bind (tracksNext like) fun t => ?_
  cases t with
  | none =>
    refine Parallel.get (by rintro s _ ⟨_, cursor, ⟨log, -, rfl⟩, -, rfl⟩; rfl) fun s => ?_
    split
    · exact Parallel.answer _
    · exact tracksAtEnd like _
  | some t =>
    dsimp only
    split
    · exact tracksAtEnd like t
    · exact Parallel.bind (tracksKeyword like t) fun _ => Parallel.answer _
    · exact Parallel.bind (tracksPlain like blind t) fun _ => Parallel.answer _

end

-- An argument is scanned on a cursor of its own, where likeness is equality.
theorem runParallel (like : Likeness cursors gone) (steps : Nat) :
    Parallel (Alike loud cursors) (Gone gone) (run steps) := by
  induction steps generalizing loud cursors gone with
  | zero => exact Parallel.answer _
  | succ steps ih =>
    have blind (arg : List Token) : Session.Blind (argument (run steps) arg) := by
      refine Session.blindOf fun s log => ?_
      obtain ⟨same, session, cursor, after, -, whole⟩ := ((@ih False _ _ likenessSame).agrees
        (s := { session := s, cursor := .ofTokens arg, nested := true })
        ⟨_, .ofTokens arg, ⟨log, False.elim, rfl⟩, rfl, rfl⟩).resolve_left id
      obtain ⟨last, -, rfl⟩ := after
      exact ⟨same, last, congrArg Scan.session whole⟩
    have later (found : Except Stop Bool) : Parallel (Alike loud cursors) (Gone gone) fun s =>
        match found with
        | .ok true => (.ok s.out.toList, s)
        | .ok false => run steps s
        | .error e => (.error e, s) := by
      rcases found with e | ⟨_ | _⟩
      · exact Parallel.answer _
      · exact ih like
      · refine ⟨fun lost => lost, ?_⟩
        rintro s _ ⟨session, cursor, like, related, rfl⟩
        exact .inr ⟨rfl, session, cursor, like, related, rfl⟩
    refine ((tracksStep like blind).follow later).ofSame fun s => ?_
    rw [run]
    rcases (step (argument (run steps))).run.run s with ⟨e | ⟨_ | _⟩, between⟩ <;> rfl

theorem tracksBegin (like : Likeness cursors gone) : Tracks loud cursors gone begin := by
  have fired : Tracks loud cursors gone fireBegin := by
    have later (answer : Except Error (Option Token)) : Tracks loud cursors gone (do
        let first ← liftBlocks answer
        fireKeyword "BEGIN" (first.getD (.endOfInput (some 1)))) :=
      Parallel.bind (tracksLift answer) fun _ => tracksFireKeyword like "BEGIN" _
    refine ((ofCursor like.peek).follow later).ofSame fun s => ?_
    rw [fireBegin, runBind, runGet]
    rfl
  refine Parallel.get (by rintro s _ ⟨_, cursor, ⟨log, -, rfl⟩, -, rfl⟩; rfl) fun s => ?_
  split
  · exact Parallel.bind (tracksNumber like) fun _ => fired
  · exact fired

theorem unitParallel (like : Likeness cursors gone) (steps : Nat) :
    Parallel (Alike loud cursors) (Gone gone) (unit steps) := by
  have later (found : Except Stop Unit) : Parallel (Alike loud cursors) (Gone gone) fun s =>
      match found with
      | .ok () => run steps s
      | .error e => (.error e, s) := by
    cases found with
    | error e => exact Parallel.answer _
    | ok => exact runParallel like steps
  refine ((tracksBegin like).follow later).ofSame fun s => ?_
  rw [unit]
  rcases begin.run.run s with ⟨e | ⟨⟨⟩⟩, start⟩ <;> rfl

end Scan

end LuaExpander
