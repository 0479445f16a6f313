import LuaExpander.Proofs.Changes

/-! What lasts through a scan whether or not it succeeds. A scan that fails keeps the session as it
then is. So a statement about sessions that outlasts every program, the end of a scope, the log and
all changes of blocks also outlasts every scan, whatever becomes of it. -/
namespace LuaExpander

structure Session.Lasting (holds : Session → Prop) : Prop where
  program (p : Program) {f : Frame} : holds f.session → holds (p.run f).2.session
  restored {subject height s} : holds s → holds (s.restore subject height)
  logged {text line nesting s} : holds s → holds (s.logText text line nesting)
  blocks {blocks s} : holds s → holds { s with blocks }
  numbered {fresh s} : holds s → holds { s with fresh }

namespace Scan

variable {holds : Session → Prop} {α β : Type}

def Lasts (holds : Session → Prop) (act : ScanM α) : Prop :=
  ∀ s, holds s.session → holds (act.run.run s).2.session

def Steady (holds : Session → Prop) (expand : ArgumentExpander) : Prop :=
  ∀ arg s, holds s → holds (expand arg s).2

theorem lastsPure (a : α) : Lasts holds (pure a) := fun _ before => before

theorem lastsLift (answer : Except Error α) : Lasts holds (liftBlocks answer) := by
  intro s before
  cases answer <;> exact before

theorem lastsBind {x : ScanM α} {f : α → ScanM β} (first : Lasts holds x)
    (second : ∀ a, Lasts holds (f a)) : Lasts holds (x >>= f) := by
  intro s before
  have between := first s before
  rw [runBind]
  rcases ran : x.run.run s with ⟨e | a, s'⟩
  · rw [ran] at between
    exact between
  · rw [ran] at between
    exact second a s' between

-- What follows a look at the state may use that the state is still the same.
theorem lastsGet {f : Scan → ScanM α}
    (second : ∀ s, holds s.session → holds ((f s).run.run s).2.session) :
    Lasts holds (get >>= f) := fun s before => second s before

theorem lastsEmit (t : Token) : Lasts holds (emit t) := fun _ before => before

theorem lastsPrepend (ts : List Token) : Lasts holds (prepend ts) := fun _ before => before

theorem lastsInSession {f : Session → Session} (keeps : ∀ s, holds s → holds (f s)) :
    Lasts holds (inSession f) := fun s before => keeps s.session before

theorem lastsNext : Lasts holds nextToken := by
  refine lastsGet fun s before => ?_
  rw [runBind, runSet]
  dsimp only
  split <;> exact before

theorem lastsReadArguments (d : Definition) (nameToken : Token) :
    Lasts holds (readArguments d nameToken) := by
  intro s before
  unfold readArguments
  cases d.params with
  | none => exact before
  | some params =>
    dsimp only
    rw [runBind, runGet]
    dsimp only
    rcases (d.readArguments params nameToken).run.run
      { cursor := s.cursor, origin := some nameToken } with ⟨f | args, reader⟩ <;> exact before

/- The arguments as a replacement text has them, and the scan when they have their numbers. -/
def copies (args : List (List Token)) (s : Scan) : List (List Token) :=
  Tokens.numberEach s.session.fresh 0 args

def counting (args : List (List Token)) (s : Scan) : Scan :=
  { s with session.fresh := s.session.fresh + min args.length 1 }

theorem numberArgumentsRuns (args : List (List Token)) (s : Scan) :
    (numberArguments args).run.run s = (.ok (s.copies args), s.counting args) := by
  cases args with
  | nil => rfl
  | cons arg rest =>
    have one : min (arg :: rest).length 1 = 1 := by simp
    rw [counting, one]
    rfl

theorem lastsExpandArguments {expand : ArgumentExpander} (steady : Steady holds expand)
    (args : List (List Token)) : Lasts holds (expandArguments expand args) := by
  induction args with
  | nil => exact lastsPure _
  | cons arg rest ih =>
    refine lastsGet fun s before => ?_
    have between := steady arg s.session before
    rcases ran : expand arg s.session with ⟨e | ts, session⟩
    · rw [ran] at between
      exact between
    · rw [ran] at between
      have later : Lasts holds (expandArguments expand rest >>= fun more => pure (ts :: more)) :=
        lastsBind ih fun _ => lastsPure _
      exact later { s with session } between

variable (lasting : Session.Lasting holds)
include lasting

theorem lastsNumber : Lasts holds number := fun _ before => lasting.numbered before

theorem lastsNumberArguments (args : List (List Token)) : Lasts holds (numberArguments args) := by
  intro s before
  rw [numberArgumentsRuns]
  exact lasting.numbered before

theorem runHandlerLasts (h : Handler) (t : Token) (f : Frame) (before : holds f.session) :
    holds (runHandler h t f).2.session := by
  cases h with
  | restore subject height => exact lasting.restored before
  | program name run =>
    have after := lasting.program (run t) before
    unfold runHandler
    dsimp only
    split <;> exact after

theorem runHandlersLasts (t : Token) (handlers : List Handler) (f : Frame)
    (before : holds f.session) : holds (runHandlers t handlers f).2.session := by
  induction handlers generalizing f with
  | nil => exact before
  | cons h hs ih =>
    have between := runHandlerLasts lasting h t f before
    unfold runHandlers
    rcases first : runHandler h t f with ⟨e | ts, g⟩
    · rw [first] at between
      exact between
    · rw [first] at between
      have after := ih g between
      dsimp only
      rcases ran : runHandlers t hs g with ⟨e | more, g'⟩
      · rw [ran] at after
        exact after
      · rw [ran] at after
        exact after

theorem lastsFire (handlers : List Handler) (t : Token) (reads : Bool) :
    Lasts holds (fire handlers t reads) := by
  refine lastsGet fun s before => ?_
  have after := runHandlersLasts lasting t handlers
    { session := s.session
      reader := if reads then some { cursor := s.cursor, origin := some t } else none } before
  rw [runBind, runSet]
  dsimp only
  split <;> exact after

theorem lastsFireKeyword (word : String) (t : Token) : Lasts holds (fireKeyword word t) := by
  refine lastsBind (fun _ before => before) fun s => ?_
  dsimp only
  split
  · exact lastsPure _
  · exact lastsBind (lastsNumber lasting) fun _ => lastsFire lasting _ t true

theorem lastsCallTransformer (d : Definition) (t : Transformer) (nameToken : Token)
    (args : List (List Token)) (taken : Array Token) :
    Lasts holds (callTransformer d t nameToken args taken) := by
  refine lastsGet fun s before => ?_
  have after := lasting.program (t.run (if d.isFunction then .applied args else .bare nameToken))
    (f := { session := s.session
            reader := if d.isFunction then none
              else some { cursor := s.cursor, origin := some nameToken } }) before
  dsimp only
  rw [runBind, runSet]
  dsimp only
  split <;> exact after

theorem logArgumentsLasts (t : Token) (args : List (String × List Token)) (s : Session)
    (before : holds s) : holds (s.logArguments t args) := by
  induction args generalizing s with
  | nil => exact before
  | cons arg rest ih => exact ih _ (lasting.logged before)

theorem logCallLasts (t : Token) (d : Definition) (args : List (List Token)) (s : Session)
    (before : holds s) : holds (s.logCall t d args) :=
  logArgumentsLasts lasting t _ _ (lasting.logged before)

theorem lastsReplacement {expand : ArgumentExpander} (steady : Steady holds expand)
    (d : Definition) (nameToken : Token) : Lasts holds (replacement expand d nameToken) := by
  unfold replacement
  cases d.body with
  | text value =>
    refine lastsBind (lastsReadArguments d nameToken) fun _ => ?_
    refine lastsBind (lastsNumberArguments lasting _) fun _ => ?_
    exact lastsBind (lastsInSession (logCallLasts lasting nameToken d _)) fun _ => lastsPure _
  | callable t =>
    refine lastsBind (lastsNumber lasting) fun _ => ?_
    refine lastsBind (lastsReadArguments d nameToken) fun _ => ?_
    refine lastsBind (lastsExpandArguments steady _) fun _ => ?_
    refine lastsBind (lastsInSession (logCallLasts lasting nameToken d _)) fun _ => ?_
    exact lastsCallTransformer lasting d t nameToken _ _

theorem logHeldLasts (t : Token) (n : Nat) (s : Session) (before : holds s) :
    holds (logHeld t n s) := by
  induction n generalizing s with
  | zero => exact before
  | succ n ih => exact ih _ (lasting.logged before)

theorem lastsPlain {expand : ArgumentExpander} (steady : Steady holds expand) (t : Token) :
    Lasts holds (plain expand t) := by
  refine lastsGet fun s before => ?_
  dsimp only
  refine lastsBind (x := set _) (fun _ _ => before) (fun _ => ?_) s before
  refine lastsBind (lastsLift _) fun search => ?_
  refine lastsBind (lastsInSession (logHeldLasts lasting t _)) fun _ => ?_
  cases search.found with
  | none => exact lastsEmit t
  | some m =>
    refine lastsBind (lastsReplacement lasting steady _ _) fun ts => ?_
    exact lastsBind (lastsInSession fun _ => lasting.logged) fun _ => lastsPrepend ts

theorem lastsOpenBlock (t : Token) : Lasts holds (openBlock t) :=
  lastsBind (lastsInSession fun _ before => lasting.logged (lasting.blocks before))
    fun _ => lastsFireKeyword lasting t.value t

theorem lastsCloseBlock (t : Token) : Lasts holds (closeBlock t) := by
  refine lastsGet fun s before => ?_
  cases left : s.session.leaveBlock t with
  | error e => exact before
  | ok pair =>
    obtain ⟨handlers, session⟩ := pair
    have outside : holds session := by
      unfold Session.leaveBlock at left
      cases inner : s.session.blocks.leave t with
      | error e => rw [inner] at left; cases left
      | ok pair =>
        rw [inner] at left
        cases left
        exact lasting.blocks (lasting.logged before)
    have later : Lasts holds (do
        fireDeferred handlers t
        fireKeyword t.value t) :=
      lastsBind (lastsFire lasting handlers t false) fun _ => lastsFireKeyword lasting t.value t
    exact later { s with session } outside

theorem lastsKeyword (t : Token) : Lasts holds (keyword t) := by
  refine lastsBind (lastsEmit t) fun _ => ?_
  refine lastsBind (fun _ before => before) fun s => ?_
  split
  · exact lastsPure _
  · split
    · exact lastsOpenBlock lasting t
    · split
      · exact lastsCloseBlock lasting t
      · exact lastsFireKeyword lasting t.value t

theorem lastsAtEnd (t : Token) : Lasts holds (atEnd t) := by
  refine lastsGet fun s before => ?_
  split
  · exact lastsBind (lastsLift _) (fun _ => lastsBind (lastsEmit t) fun _ => lastsPure _) s before
  · refine lastsBind (x := set _) (fun _ _ => before) (fun _ => ?_) s before
    refine lastsBind (lastsLift _) fun _ => ?_
    refine lastsBind (lastsInSession fun _ => lasting.blocks) fun _ => ?_
    refine lastsBind (lastsPrepend _) fun _ => ?_
    refine lastsBind (lastsFireKeyword lasting "END" t) fun _ => ?_
    exact lastsBind (lastsFire lasting _ t false) fun _ => lastsPure _

theorem lastsStep {expand : ArgumentExpander} (steady : Steady holds expand) :
    Lasts holds (step expand) := by
  refine lastsBind lastsNext fun t => ?_
  cases t with
  | none =>
    refine lastsBind (fun _ before => before) fun s => ?_
    split
    · exact lastsPure _
    · exact lastsAtEnd lasting _
  | some t =>
    dsimp only
    split
    · exact lastsAtEnd lasting t
    · exact lastsBind (lastsKeyword lasting t) fun _ => lastsPure _
    · exact lastsBind (lastsPlain lasting steady t) fun _ => lastsPure _

theorem runLasts (steps : Nat) (s : Scan) (before : holds s.session) :
    holds (run steps s).2.session := by
  induction steps generalizing s with
  | zero => exact before
  | succ steps ih =>
    have steady : Steady holds (argument (run steps)) := fun arg session started =>
      ih { session, cursor := .ofTokens arg, nested := true } started
    have after := lastsStep lasting steady s before
    unfold run
    rcases stepped : (step (argument (run steps))).run.run s with ⟨e | done, between⟩
    · rw [stepped] at after
      exact after
    · rw [stepped] at after
      cases done with
      | true => exact after
      | false => exact ih between after

theorem lastsBegin : Lasts holds begin := by
  have fired : Lasts holds fireBegin := by
    refine lastsGet fun s before => ?_
    dsimp only
    refine lastsBind (x := set _) (fun _ _ => before) (fun _ => ?_) s before
    exact lastsBind (lastsLift _) fun _ => lastsFireKeyword lasting "BEGIN" _
  refine lastsBind (fun _ before => before) fun s => ?_
  split
  · exact lastsBind (lastsNumber lasting) fun _ => fired
  · exact fired

theorem unitLasts (steps : Nat) (s : Scan) (before : holds s.session) :
    holds (unit steps s).2.session := by
  have between := lastsBegin lasting s before
  unfold unit
  rcases began : begin.run.run s with ⟨e | ⟨⟨⟩⟩, start⟩
  · rw [began] at between
    exact between
  · rw [began] at between
    exact runLasts lasting steps start between

end Scan

end LuaExpander
