import LuaExpander.Proofs.Running

/-! What a program can do to a session, seen at its definitions and its blocks. Programs define and
take back names, register handlers and publish values; no program changes the block depth or fires
a handler. Hence whatever holds of a session and is kept by these few changes holds after every
program. -/
namespace LuaExpander

namespace Session

structure Quiet (s s' : Session) : Prop where
  registry : s'.registry = s.registry
  blocks : s'.blocks = s.blocks

namespace Quiet

theorem refl (s : Session) : Quiet s s := ⟨rfl, rfl⟩

theorem trans {a b c : Session} (first : Quiet a b) (second : Quiet b c) : Quiet a c :=
  ⟨second.registry.trans first.registry, second.blocks.trans first.blocks⟩

end Quiet

theorem logTextQuiet (text : String) (line : Line) (nesting : Nat) (s : Session) :
    Quiet s (s.logText text line nesting) := by
  unfold logText
  split <;> exact ⟨rfl, rfl⟩

theorem logRestoredQuiet (name : String) (s : Session) : Quiet s (s.logRestored name) := by
  unfold logRestored
  split <;> exact logTextQuiet _ _ _ s

theorem logArgumentsQuiet (t : Token) (args : List (String × List Token)) (s : Session) :
    Quiet s (s.logArguments t args) := by
  induction args generalizing s with
  | nil => exact .refl s
  | cons arg rest ih =>
    unfold logArguments
    exact (logTextQuiet _ _ _ s).trans (ih _)

theorem logCallQuiet (t : Token) (d : Definition) (args : List (List Token)) (s : Session) :
    Quiet s (s.logCall t d args) := by
  unfold logCall
  exact (logTextQuiet _ _ _ s).trans (logArgumentsQuiet _ _ _)

theorem reportQuiet (severity : Severity) (unitName : Option UnitName) (line : Line)
    (message : String) (s : Session) : Quiet s (s.report severity unitName line message) := by
  have logged := logTextQuiet (severity.word ++ ": " ++ message) line 0 s
  unfold report
  cases severity <;> exact ⟨logged.registry, logged.blocks⟩

theorem installRegistry (d : Definition) (warn : Bool) (s : Session) :
    (s.install d warn).registry = s.registry.push d := by
  unfold install
  dsimp only
  rw [logDefined, (logTextQuiet _ _ _ _).registry]
  split
  · exact congrArg (Registry.push d) (reportQuiet _ _ _ _ s).registry
  · rfl

theorem installBlocks (d : Definition) (warn : Bool) (s : Session) :
    (s.install d warn).blocks = s.blocks := by
  unfold install
  dsimp only
  rw [logDefined, (logTextQuiet _ _ _ _).blocks]
  split
  · exact (reportQuiet _ _ _ _ s).blocks
  · rfl

theorem restoreRegistry (name : String) (height : Nat) (s : Session) :
    (s.restore name height).registry = s.registry.restore name height := by
  unfold restore
  split
  · exact (logRestoredQuiet _ _).registry
  · rename_i undefined
    have absent : s.registry.stack? name = none := by
      simpa [Registry.isDefined] using undefined
    rw [Registry.restore, absent]

theorem restoreBlocks (name : String) (height : Nat) (s : Session) :
    (s.restore name height).blocks = s.blocks := by
  unfold restore
  split
  · exact (logRestoredQuiet _ _).blocks
  · rfl

theorem logTextFresh (text : String) (line : Line) (nesting : Nat) (s : Session) :
    (s.logText text line nesting).fresh = s.fresh := by
  unfold logText
  split <;> rfl

theorem enterBlockFresh (t : Token) (s : Session) : (s.enterBlock t).fresh = s.fresh :=
  logTextFresh _ _ _ { s with blocks := s.blocks.enter }

theorem enterBlockRegistry (t : Token) (s : Session) : (s.enterBlock t).registry = s.registry :=
  (logTextQuiet _ _ _ { s with blocks := s.blocks.enter }).registry

theorem enterBlockBlocks (t : Token) (s : Session) : (s.enterBlock t).blocks = s.blocks.enter :=
  (logTextQuiet _ _ _ { s with blocks := s.blocks.enter }).blocks

theorem leaveBlockSucceeds {t : Token} {s s' : Session} {handlers : List Handler}
    (left : s.leaveBlock t = .ok (handlers, s')) :
    s.blocks.leave t = .ok (handlers, s'.blocks) ∧ s'.registry = s.registry := by
  unfold leaveBlock at left
  cases inner : s.blocks.leave t with
  | error e => rw [inner] at left; cases left
  | ok pair =>
    rw [inner] at left
    cases left
    exact ⟨rfl, (logTextQuiet _ _ _ s).registry⟩

theorem leaveBlockFresh {t : Token} {s s' : Session} {handlers : List Handler}
    (left : s.leaveBlock t = .ok (handlers, s')) : s'.fresh = s.fresh := by
  unfold leaveBlock at left
  cases inner : s.blocks.leave t with
  | error e => rw [inner] at left; cases left
  | ok pair =>
    rw [inner] at left
    cases left
    exact logTextFresh _ _ _ s

theorem leaveBlockFails {t : Token} {s : Session} {e : Error}
    (refused : s.leaveBlock t = .error e) : s.blocks.leave t = .error e := by
  unfold leaveBlock at refused
  cases inner : s.blocks.leave t with
  | error e' => rw [inner] at refused; cases refused; rfl
  | ok pair => rw [inner] at refused; cases refused

inductive Change (s s' : Session) : Prop where
  | quiet (same : Quiet s s')
  | define {spec : String} {meaning : Option Definition.Meaning} {line : Line} {d : Definition}
      (made : Definition.make spec meaning s.blocks.depth line = .ok d)
      (registry : s'.registry = s.registry.push d)
      (blocks : s'.blocks = s.blocks)
  | scope {name : String} {meaning : Option Definition.Meaning} {d : Definition}
      (made : Definition.make name meaning s.blocks.depth (some 0) = .ok d)
      (registry : s'.registry = s.registry.push d)
      (blocks : s.blocks.defer (.restore name (s.registry.height name)) none = .ok s'.blocks)
  | undefine (name : String) (registry : s'.registry = s.registry.undefine name)
      (blocks : s'.blocks = s.blocks)
  | defer {name : String} {run : Token → Program} {depth : Option Int}
      (registry : s'.registry = s.registry)
      (blocks : s.blocks.defer (.program name run) depth = .ok s'.blocks)
  | onKeyword {word name : String} {run : Token → Program} (registry : s'.registry = s.registry)
      (blocks : s'.blocks = s.blocks.onKeyword word (.program name run))

theorem defineFails {spec meaning warn line s f s'}
    (ran : (define spec meaning warn line).run.run s = (.error f, s')) : s' = s := by
  rw [define, runBind, runGet] at ran
  dsimp only at ran
  rw [runBind, runLift] at ran
  cases made : Definition.make spec meaning s.blocks.depth line with
  | error e => rw [made] at ran; cases ran; rfl
  | ok d => rw [made] at ran; cases ran

theorem defineSucceeds {spec meaning warn line s d s'}
    (ran : (define spec meaning warn line).run.run s = (.ok d, s')) :
    Definition.make spec meaning s.blocks.depth line = .ok d ∧
      s'.registry = s.registry.push d ∧ s'.blocks = s.blocks := by
  rw [define, runBind, runGet] at ran
  dsimp only at ran
  rw [runBind, runLift] at ran
  cases made : Definition.make spec meaning s.blocks.depth line with
  | error e => rw [made] at ran; cases ran
  | ok base =>
    rw [made] at ran
    cases ran
    exact ⟨rfl, installRegistry _ _ _, installBlocks _ _ _⟩

/- A name is defined, or a warning about it cannot be given out and nothing is done. -/
theorem declareCases (spec : String) (meaning : Option Definition.Meaning) (warn : Bool)
    (line : Line) (s : Session) :
    (declare spec meaning warn line).run.run s = (.error (.fault (.notAPath "int")), s) ∨
      (declare spec meaning warn line).run.run s = (define spec meaning warn line).run.run s := by
  rw [declare, runBind, runGet]
  dsimp only
  split
  · exact .inl rfl
  · exact .inr rfl

theorem declarePlaced {s : Session} (placed : s.isPlaced s.unitName = true) (spec : String)
    (meaning : Option Definition.Meaning) (warn : Bool) (line : Line) :
    (declare spec meaning warn line).run.run s = (define spec meaning warn line).run.run s := by
  have warns : s.cannotWarn spec meaning warn line = false := by simp [cannotWarn, placed]
  rw [declare, runBind, runGet]
  dsimp only
  rw [warns]
  rfl

theorem defineChange (spec : String) (meaning : Option Definition.Meaning) (warn : Bool)
    (line : Line) (s : Session) : Change s ((define spec meaning warn line).run.run s).2 := by
  rcases ran : (define spec meaning warn line).run.run s with ⟨f | d, s'⟩
  · rw [defineFails ran]
    exact .quiet (.refl s)
  · obtain ⟨made, registry, blocks⟩ := defineSucceeds ran
    exact .define made registry blocks

theorem declareChange (spec : String) (meaning : Option Definition.Meaning) (warn : Bool)
    (line : Line) (s : Session) : Change s ((declare spec meaning warn line).run.run s).2 := by
  rcases declareCases spec meaning warn line s with refused | same
  · rw [refused]
    exact .quiet (.refl s)
  · rw [same]
    exact defineChange spec meaning warn line s

-- The current depth is never negative, so that waiting for it cannot fail.
theorem deferHere (handler : Handler) (s : Session) :
    ∃ s', (defer handler none).run.run s = (.ok (), s') ∧ s'.registry = s.registry ∧
      s.blocks.defer handler none = .ok s'.blocks := by
  have nonnegative : ¬ (s.blocks.depth : Int) < 0 := by omega
  rw [defer, runBind, runGet]
  dsimp only
  rw [Blocks.defer, Option.getD_none, if_neg nonnegative]
  exact ⟨_, rfl, rfl, rfl⟩

theorem scopeFails {name meaning s f s'}
    (ran : (scope name meaning).run.run s = (.error f, s')) : s' = s := by
  rw [scope, runBind, runGet] at ran
  dsimp only at ran
  rw [runBind] at ran
  rcases first : (define name meaning false).run.run s with ⟨e | d, between⟩
  · rw [first] at ran
    cases ran
    exact defineFails first
  · obtain ⟨after, waited, -, -⟩ := deferHere (.restore name (s.registry.height name)) between
    rw [first] at ran
    dsimp only at ran
    rw [runBind, waited] at ran
    cases ran

theorem scopeSucceeds {name meaning s d s'}
    (ran : (scope name meaning).run.run s = (.ok d, s')) :
    Definition.make name meaning s.blocks.depth (some 0) = .ok d ∧
      s'.registry = s.registry.push d ∧
      s.blocks.defer (.restore name (s.registry.height name)) none = .ok s'.blocks := by
  rw [scope, runBind, runGet] at ran
  dsimp only at ran
  rw [runBind] at ran
  rcases first : (define name meaning false).run.run s with ⟨e | d, between⟩
  · rw [first] at ran
    cases ran
  · obtain ⟨made, registry, blocks⟩ := defineSucceeds first
    obtain ⟨after, waited, same, waits⟩ :=
      deferHere (.restore name (s.registry.height name)) between
    rw [first] at ran
    dsimp only at ran
    rw [runBind, waited] at ran
    cases ran
    exact ⟨made, same.trans registry, by rw [← blocks]; exact waits⟩

theorem scopeChange (name : String) (meaning : Option Definition.Meaning) (s : Session) :
    Change s ((scope name meaning).run.run s).2 := by
  rcases ran : (scope name meaning).run.run s with ⟨f | d, s'⟩
  · rw [scopeFails ran]
    exact .quiet (.refl s)
  · obtain ⟨made, registry, blocks⟩ := scopeSucceeds ran
    exact .scope made registry blocks

theorem deferChange (name : String) (run : Token → Program) (depth : Option Int) (s : Session) :
    Change s ((defer (.program name run) depth).run.run s).2 := by
  rw [defer, runBind, runGet]
  dsimp only
  cases waits : s.blocks.defer (.program name run) depth with
  | ok blocks => exact .defer rfl waits
  | error f => exact .quiet (.refl s)

theorem logContextQuiet (name : String) (value : Value) (more : String) (s : Session) :
    Quiet s ((logContext name value more).run.run s).2 := by
  unfold logContext
  cases value.describe with
  | ok text => exact logTextQuiet _ _ _ s
  | error f => exact .refl s

theorem contextQuiet (op : ContextOp) (s : Session) : Quiet s ((context op).run.run s).2 := by
  cases op with
  | push name value =>
    rw [context, runBind, runModify]
    dsimp only
    rw [runBind, runGet]
    dsimp only
    rw [runBind]
    have logged := logContextQuiet name value
      (", level " ++ toString ((s.contexts.push name value).depth name))
      { s with contexts := s.contexts.push name value }
    split <;> rename_i ran <;> rw [ran] at logged <;> exact ⟨logged.registry, logged.blocks⟩
  | update name value =>
    rw [context, runBind, runGet]
    dsimp only
    cases s.contexts.update name value with
    | error f => exact .refl s
    | ok contexts =>
      dsimp only
      rw [runBind, runSet]
      dsimp only
      rw [runBind]
      have logged := logContextQuiet name value "" { s with contexts }
      split <;> rename_i ran <;> rw [ran] at logged <;> exact ⟨logged.registry, logged.blocks⟩
  | pop name =>
    rw [context, runBind, runGet]
    dsimp only
    cases s.contexts.pop name with
    | error f => exact .refl s
    | ok popped =>
      have logged := logTextQuiet ("Context " ++ name ++ " ended") none 0
        { s with contexts := popped.2 }
      exact ⟨logged.registry, logged.blocks⟩
  | valueOf name => exact .refl s
  | isActive name => exact .refl s
  | depth name => exact .refl s
  | reset => exact ⟨rfl, rfl⟩

end Session

namespace Frame

theorem readingSession (what : String) (act : ReaderM α) (f : Frame) :
    (f.reading what act).2.session = f.session := by
  unfold reading
  cases f.reader <;> rfl

theorem answerChange (f : Frame) (q : Query) : Session.Change f.session (f.answer q).2.session := by
  cases q with
  | read op => exact .quiet (readingSession op.word (Reader.perform op) f ▸ .refl _)
  | taken => exact .quiet (readingSession "taken" _ f ▸ .refl _)
  | define spec value line =>
    have changed := Session.declareChange spec (value.map .value) true line f.session
    rwa [← runDiscard] at changed
  | scope spec value =>
    have changed := Session.scopeChange spec (value.map .value) f.session
    rwa [← runDiscard] at changed
  | undefine name => exact .undefine name rfl rfl
  | context op => exact .quiet (Session.contextQuiet op f.session)
  | depth | unitName | isDefined | note | ticket => exact .quiet ⟨rfl, rfl⟩

theorem bindChange (life : Lifetime) (spec : String) (t : Transformer) (f : Frame) :
    Session.Change f.session (f.inSession (bind life spec t)).2.session := by
  cases life with
  | lasting =>
    have changed := Session.declareChange spec (some (.callable t)) true (some 0) f.session
    rwa [← runDiscard] at changed
  | block =>
    have changed := Session.scopeChange spec (some (.callable t)) f.session
    rwa [← runDiscard] at changed

end Frame

/- A statement about a session and the handlers that are due: they wait no more and have yet to
fire, the first of the list first. -/
structure Session.Invariant (holds : List Handler → Session → Prop) : Prop where
  also {handlers due s} : holds due s → holds (handlers ++ due) s
  change {due s s'} : Session.Change s s' → holds due s → holds due s'
  restored {subject height due s} :
    holds (.restore subject height :: due) s → holds due (s.restore subject height)
  fired {name run due s} : holds (.program name run :: due) s → holds due s
  finished {t handlers blocks s} : s.blocks.finish t = .ok (handlers, blocks) →
    holds [] s → holds handlers { s with blocks }

theorem Program.runKeeps {holds} (inv : Session.Invariant holds) {due : List Handler}
    (p : Program) (f : Frame) (before : holds due f.session) : holds due (p.run f).2.session := by
  induction p generalizing f with
  | done result built => exact before
  | fail failure => exact before
  | ask q next ih => exact ih _ _ (inv.change (f.answerChange q) before)
  | define life spec name id body next _ ih =>
    exact ih _ _ (inv.change (f.bindChange life spec ⟨name, id, body⟩) before)
  | defer depth name body next _ ih =>
    exact ih _ _ (inv.change (Session.deferChange name body depth f.session) before)
  | onKeyword word name body next _ ih =>
    have changed : Session.Change f.session (f.session.onKeyword word (.program name body)) :=
      .onKeyword rfl rfl
    exact ih _ _ (inv.change changed before)

end LuaExpander
