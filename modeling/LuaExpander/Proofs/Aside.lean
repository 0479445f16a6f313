import LuaExpander.Proofs.Lasting

/-! Parts of a session that stand aside: what defining and taking back names, waiting handlers,
published values, warnings and the log leave as it is. A program can do no more than these. So such
a part is the same after every program, and after every scan, whatever becomes of it. -/
namespace LuaExpander

namespace Session

variable {α β γ : Type} {view : Session → γ}

structure Aside (view : Session → γ) : Prop where
  registry (s registry) : view { s with registry } = view s
  blocks (s blocks) : view { s with blocks } = view s
  contexts (s contexts) : view { s with contexts } = view s
  log (s log) : view { s with log } = view s
  warned (s diagnostics warnings) : view { s with diagnostics, warnings } = view s
  notes (s notes) : view { s with notes } = view s
  fresh (s fresh) : view { s with fresh } = view s

def Avoids (view : Session → γ) (act : SessionM α) : Prop :=
  ∀ s, view (act.run.run s).2 = view s

theorem avoidsPure (a : α) : Avoids view (pure a) := fun _ => rfl

theorem avoidsThrow (f : Failure) : Avoids view (throw f : SessionM α) := fun _ => rfl

theorem avoidsModify {f : Session → Session} (same : ∀ s, view (f s) = view s) :
    Avoids view (modify f) := same

theorem avoidsBind {x : SessionM α} {f : α → SessionM β} (first : Avoids view x)
    (second : ∀ a, Avoids view (f a)) : Avoids view (x >>= f) := by
  intro s
  have between := first s
  rw [runBind]
  rcases ran : x.run.run s with ⟨e | a, s'⟩ <;> rw [ran] at between
  · exact between
  · exact (second a s').trans between

theorem avoidsGet {f : Session → SessionM α}
    (second : ∀ s, view ((f s).run.run s).2 = view s) : Avoids view (get >>= f) := second

namespace Aside

variable (aside : Aside view)
include aside

theorem logText (text : String) (line : Line) (nesting : Nat) (s : Session) :
    view (s.logText text line nesting) = view s := by
  unfold Session.logText
  split
  · rfl
  · exact aside.log s _

theorem logRestored (name : String) (s : Session) : view (s.logRestored name) = view s := by
  unfold Session.logRestored
  split <;> exact aside.logText _ _ _ s

theorem warning (unitName : Option UnitName) (line : Line) (message : String) (s : Session) :
    view (s.report .warning unitName line message) = view s := by
  have logged := aside.logText (Severity.warning.word ++ ": " ++ message) line 0 s
  exact (aside.warned (s.logText _ line 0) _ _).trans logged

theorem install (d : Definition) (warn : Bool) (s : Session) :
    view (s.install d warn) = view s := by
  unfold Session.install logDefined
  dsimp only
  rw [aside.logText, aside.registry]
  split
  · exact aside.warning _ _ _ s
  · rfl

theorem restore (name : String) (height : Nat) (s : Session) :
    view (s.restore name height) = view s := by
  unfold Session.restore
  split
  · exact (aside.logRestored name _).trans (aside.registry s _)
  · rfl

theorem define (spec : String) (meaning : Option Definition.Meaning) (warn : Bool) (line : Line) :
    Avoids view (define spec meaning warn line) := by
  refine avoidsGet fun s => ?_
  refine avoidsBind (fun _ => rfl) (fun d => ?_) s
  exact avoidsBind (avoidsModify (aside.install _ _)) fun _ => avoidsPure _

theorem declare (spec : String) (meaning : Option Definition.Meaning) (warn : Bool) (line : Line) :
    Avoids view (declare spec meaning warn line) := by
  intro s
  rcases declareCases spec meaning warn line s with refused | same
  · rw [refused]
  · rw [same]
    exact aside.define spec meaning warn line s

theorem defer (handler : Handler) (depth : Option Int) : Avoids view (defer handler depth) := by
  refine avoidsGet fun s => ?_
  cases s.blocks.defer handler depth with
  | error f => rfl
  | ok blocks => exact aside.blocks s blocks

theorem scope (name : String) (meaning : Option Definition.Meaning) :
    Avoids view (scope name meaning) := by
  refine avoidsGet fun s => ?_
  refine avoidsBind (aside.define _ _ _ _) (fun d => ?_) s
  exact avoidsBind (aside.defer _ _) fun _ => avoidsPure _

theorem logContext (name : String) (value : Value) (more : String) :
    Avoids view (logContext name value more) := by
  unfold Session.logContext
  cases value.describe with
  | ok text => exact avoidsModify (aside.logText _ _ _)
  | error f => exact avoidsThrow _

theorem context (op : ContextOp) : Avoids view (context op) := by
  cases op with
  | push name value =>
    refine avoidsBind (avoidsModify fun s => aside.contexts s _) fun _ => avoidsGet fun s => ?_
    exact avoidsBind (aside.logContext _ _ _) (fun _ => avoidsPure _) s
  | update name value =>
    refine avoidsGet fun s => ?_
    cases s.contexts.update name value with
    | error f => rfl
    | ok contexts =>
      exact (avoidsBind (aside.logContext _ _ _) (fun _ => avoidsPure Value.nothing)
        { s with contexts }).trans (aside.contexts s contexts)
  | pop name =>
    refine avoidsGet fun s => ?_
    cases s.contexts.pop name with
    | error f => rfl
    | ok popped => exact (aside.logText _ _ _ _).trans (aside.contexts s popped.2)
  | valueOf name | isActive name | depth name => exact fun _ => rfl
  | reset => exact avoidsModify fun s => aside.contexts s _

theorem answer (f : Frame) (q : Query) : view (f.answer q).2.session = view f.session := by
  cases q with
  | read op => rw [Frame.answer, Frame.readingSession]
  | taken => rw [Frame.answer, Frame.readingSession]
  | define spec value line =>
    exact avoidsBind (aside.declare _ _ _ _) (fun _ => avoidsPure ()) f.session
  | scope spec value => exact avoidsBind (aside.scope _ _) (fun _ => avoidsPure ()) f.session
  | context op => exact aside.context op f.session
  | undefine name => exact aside.registry f.session _
  | note value => exact aside.notes f.session _
  | ticket => exact aside.fresh f.session _
  | depth | unitName | isDefined => rfl

theorem bind (life : Lifetime) (spec : String) (t : Transformer) :
    Avoids view (Frame.bind life spec t) := by
  cases life with
  | lasting => exact avoidsBind (aside.declare _ _ _ _) fun _ => avoidsPure ()
  | block => exact avoidsBind (aside.scope _ _) fun _ => avoidsPure ()

theorem program (p : Program) (f : Frame) : view (p.run f).2.session = view f.session := by
  induction p generalizing f with
  | done result built => rfl
  | fail failure => rfl
  | ask q next ih => exact (ih _ _).trans (aside.answer f q)
  | define life spec name id body next _ ih =>
    exact (ih _ _).trans (aside.bind life spec ⟨name, id, body⟩ f.session)
  | defer depth name body next _ ih =>
    exact (ih _ _).trans (aside.defer (.program name body) depth f.session)
  | onKeyword word name body next _ ih => exact (ih _ _).trans (aside.blocks f.session _)

theorem lasting (seen : γ) : Lasting fun s => view s = seen where
  program p f same := (aside.program p f).trans same
  restored same := (aside.restore _ _ _).trans same
  logged same := (aside.logText _ _ _ _).trans same
  blocks same := (aside.blocks _ _).trans same
  numbered same := (aside.fresh _ _).trans same

end Aside

theorem unitNameAside : Aside (·.unitName) := by
  constructor <;> intros <;> rfl

theorem errorsAside : Aside (·.errors) := by
  constructor <;> intros <;> rfl

end Session

end LuaExpander
