import LuaExpander.Proofs.Aside
import LuaExpander.Proofs.Enough
import LuaExpander.Proofs.Faultless
import LuaExpander.Proofs.Scanning
import Std.Data.ExtTreeMap.Lemmas

/-! Where failures come to light. Whatever a program fails with ends the unit that runs it, however
deep in arguments, blocks and handlers it was called. An error passes through as it is. Any other
failure becomes an error at the name that was called or at the token that the handler fired at. In
either case the unit puts its own name on an error that has none. -/
namespace LuaExpander

namespace Session

theorem titleGiven (source : Source) (unitName : Option String) :
    (source.title unitName).isGiven = true := by
  unfold Source.title
  cases asked : named (unitName.map .text) with
  | some name => exact (Option.filter_eq_some_iff.mp asked).2
  | none =>
    cases own : named source.name? with
    | some name => exact (Option.filter_eq_some_iff.mp own).2
    | none => decide

theorem beginUnitTitle (name : UnitName) (s : Session) :
    (s.beginUnit name).unitName = some name := by
  rw [beginUnit, unitNameAside.logText]
  rfl

/- The answer of a unit is that of its scan, with the unit's name put on an error. -/
theorem expandUnitAnswer {s : Session} {source : Source} {unitName : Option String}
    (admits : s.Admits source unitName) (steps : Nat) :
    (s.expandUnit steps source unitName).1 =
      match (Scan.unit steps (s.unitStart source unitName)).1 with
      | .error (.failed (.error e)) => .error (.failed (e.inUnit (source.title unitName)))
      | answer => answer := by
  have kept := Scan.unitLasts (unitNameAside.lasting (some (source.title unitName))) steps
    (s.unitStart source unitName) (beginUnitTitle _ s)
  rw [expandUnitAdmitted admits]
  unfold closeUnit
  dsimp only
  rw [kept, Option.getD_some]
  rcases (Scan.unit steps (s.unitStart source unitName)).1 with ((e | f) | _) | ts <;> rfl

end Session

theorem Registry.matchPushed (r : Registry) {d : Definition} {t : Token} (same : t.value = d.name)
    (isName : Literal.isName d.name = true) (unmarked : t.mark = none) :
    (r.push d).matchIden t = ⟨some ⟨d, t⟩, 0⟩ := by
  simp [matchIden, push, setStack, isName, same, unmarked, Stack.push, Stack.isEmpty, Stack.top?]

namespace Scan

variable {α β : Type}

/- In the course of an operation that is run on `s`, another is run on `point`. -/
inductive Begins (sub : ScanM β) (point : Scan) : {α : Type} → ScanM α → Scan → Prop where
  | itself : Begins sub point sub point
  | first {α γ : Type} {x : ScanM γ} {f : γ → ScanM α} {s} (begins : Begins sub point x s) :
      Begins sub point (x >>= f) s
  | next {α γ : Type} {x : ScanM γ} {f : γ → ScanM α} {s between a}
      (ran : x.run.run s = (.ok a, between)) (begins : Begins sub point (f a) between) :
      Begins sub point (x >>= f) s

theorem beginsFails {sub : ScanM β} {point last : Scan} {e : Stop}
    (fails : sub.run.run point = (.error e, last)) {act : ScanM α} {s : Scan}
    (begins : Begins sub point act s) : act.run.run s = (.error e, last) := by
  induction begins with
  | itself => exact fails
  | first _ ih => rw [runBind, ih]
  | next ran _ ih =>
    rw [runBind, ran]
    exact ih

/- The same for a run of a scan: the operation belongs to one of its steps or to the scan of an
argument. -/
inductive Performs (sub : ScanM β) (point : Scan) : Nat → Scan → Prop where
  | now {steps s} (begins : Begins sub point (step (argument (run steps))) s) :
      Performs sub point (steps + 1) s
  | later {steps s next} (ran : (step (argument (run steps))).run.run s = (.ok false, next))
      (performs : Performs sub point steps next) : Performs sub point (steps + 1) s
  | inside {steps s arg rest between}
      (begins : Begins (expandArguments (argument (run steps)) (arg :: rest)) between
        (step (argument (run steps))) s)
      (performs : Performs sub point steps
        { session := between.session, cursor := .ofTokens arg, nested := true }) :
      Performs sub point (steps + 1) s

theorem expandArgumentsFails {run : Scan → Except Stop (List Token) × Scan} {arg : List Token}
    {s last : Scan} {e : Stop}
    (fails : run { session := s.session, cursor := .ofTokens arg, nested := true } =
      (.error e, last)) (rest : List (List Token)) :
    ∃ after, (expandArguments (argument run) (arg :: rest)).run.run s = (.error e, after) := by
  refine ⟨{ s with session := last.session }, ?_⟩
  rw [expandArguments, runBind, runGet]
  dsimp only
  rw [argument, fails]
  rfl

theorem performsFails {sub : ScanM β} {point last : Scan} {e : Stop}
    (fails : sub.run.run point = (.error e, last)) {steps : Nat} {s : Scan}
    (performs : Performs sub point steps s) : ∃ after, run steps s = (.error e, after) := by
  induction performs with
  | now begins => exact ⟨last, by rw [run, beginsFails fails begins]⟩
  | later ran _ ih =>
    obtain ⟨after, failed⟩ := ih
    exact ⟨after, by rw [run, ran]; exact failed⟩
  | inside begins _ ih =>
    obtain ⟨inner, failed⟩ := ih
    obtain ⟨after, fails⟩ := expandArgumentsFails failed _
    exact ⟨after, by rw [run, beginsFails fails begins]⟩

/- And for a unit, which fires handlers before its first step. -/
inductive UnitPerforms (sub : ScanM β) (point : Scan) (steps : Nat) (s : Scan) : Prop where
  | begin (begins : Begins sub point begin s)
  | run {start} (began : begin.run.run s = (.ok (), start))
      (performs : Performs sub point steps start)

theorem unitPerformsFails {sub : ScanM β} {point last : Scan} {e : Stop}
    (fails : sub.run.run point = (.error e, last)) {steps : Nat} {s : Scan}
    (performs : UnitPerforms sub point steps s) : (unit steps s).1 = .error e := by
  unfold unit
  cases performs with
  | begin begins => rw [beginsFails fails begins]
  | run began performs =>
    obtain ⟨after, failed⟩ := performsFails fails performs
    rw [began]
    dsimp only
    rw [failed]

-- An identifier that stands ahead comes to be replaced, if it has a definition.
theorem nameBegins {sub : ScanM β} {point s : Scan} {expand : ArgumentExpander} {t : Token}
    {rest : List Token} {d : Definition} (ahead : s.cursor.ahead = t :: rest)
    (isName : t.kind = .iden) (found : s.session.registry.matchIden t = ⟨some ⟨d, t⟩, 0⟩)
    (begins : Begins sub point (replacement expand d t)
      { s with cursor := s.cursor.drop 1 }) :
    Begins sub point (step expand) s := by
  refine .next (nextHead ahead) ?_
  simp only [isName]
  refine .first (.next rfl (.next rfl ?_))
  simp only [isName, found]
  exact .next rfl (.next rfl (.first begins))

theorem keywordBegins {sub : ScanM β} {point s : Scan} {word : String} {t : Token}
    {h : Handler} {more : List Handler} (watched : s.session.blocks.handlersFor word = h :: more)
    (begins : Begins sub point (fire (h :: more) t true) (number.run.run s).2) :
    Begins sub point (fireKeyword word t) s := by
  refine .next rfl ?_
  dsimp only
  rw [watched]
  exact .next rfl begins

/-! Programs that fail -/

/- What runs a program: the call of a name, or a handler that fires at a token. -/
inductive Occasion where
  | call (d : Definition) (nameToken : Token)
  | handler (name : String) (t : Token)

def Occasion.token : Occasion → Token
  | .call _ nameToken => nameToken
  | .handler _ t => t

def Occasion.error : Occasion → Failure → Error
  | .call d nameToken, f => callError d nameToken f
  | .handler _ _, .error e => e
  | .handler name t, .fault x => .atToken (.handlerFailed name x) t

/- What a transformer comes to when it is called, and what a handler comes to when it fires. -/
def callAnswer (d : Definition) (t : Transformer) (nameToken : Token) (args : List (List Token))
    (s : Scan) : Except Failure (List Token) :=
  let reader : Option Reader :=
    if d.isFunction then none else some { cursor := s.cursor, origin := some nameToken }
  let call : Call := if d.isFunction then .applied args else .bare nameToken
  ((t.run call).run { session := s.session, reader }).1 >>= fun r => (callResult d r).toTokens

def handlerAnswer (program : Token → Program) (t : Token) (f : Frame) :
    Except Failure (List Token) :=
  ((program t).run f).1 >>= fun r => r.1.toTokens t.line

def fireFrame (t : Token) (reads : Bool) (s : Scan) : Frame where
  session := s.session
  reader := if reads then some { cursor := s.cursor, origin := some t } else none

/- A program that a unit runs fails, or what it ends with cannot be made into tokens. -/
inductive Raises (steps : Nat) (s : Scan) : Occasion → Failure → Prop where
  | call {d t nameToken args taken point f}
      (performs : UnitPerforms (callTransformer d t nameToken args taken) point steps s)
      (raised : callAnswer d t nameToken args point = .error f) :
      Raises steps s (.call d nameToken) f
  | handler {before name program after t reads point ts frame f}
      (performs : UnitPerforms (fire (before ++ .program name program :: after) t reads) point
        steps s)
      (ran : runHandlers t before (fireFrame t reads point) = (.ok ts, frame))
      (raised : handlerAnswer program t frame = .error f) : Raises steps s (.handler name t) f

theorem callTransformerFails {d : Definition} {t : Transformer} {nameToken : Token}
    {args : List (List Token)} {taken : Array Token} {s : Scan} {f : Failure}
    (raised : callAnswer d t nameToken args s = .error f) :
    ∃ last, (callTransformer d t nameToken args taken).run.run s =
      (.error (.failed (callError d nameToken f)), last) := by
  unfold callAnswer at raised
  rw [callTransformer, runBind, runGet]
  dsimp only
  rw [runBind, runSet]
  dsimp only
  rw [raised]
  exact ⟨_, rfl⟩

theorem runHandlerFails {name : String} {program : Token → Program} {t : Token} {frame : Frame}
    {f : Failure} (raised : handlerAnswer program t frame = .error f) :
    (runHandler (.program name program) t frame).1 =
      .error (Occasion.error (.handler name t) f) := by
  unfold handlerAnswer at raised
  unfold runHandler
  dsimp only
  rw [raised]
  cases f <;> rfl

theorem runHandlersFails {name : String} {program : Token → Program} {t : Token} {frame : Frame}
    {f : Failure} (raised : handlerAnswer program t frame = .error f)
    (after : List Handler) {before : List Handler} {start : Frame} {ts : List Token}
    (ran : runHandlers t before start = (.ok ts, frame)) :
    (runHandlers t (before ++ .program name program :: after) start).1 =
      .error (Occasion.error (.handler name t) f) := by
  induction before generalizing start ts with
  | nil =>
    cases ran
    have fails := @runHandlerFails name _ _ _ _ raised
    rw [List.nil_append, runHandlers]
    rcases first : runHandler (.program name program) t frame with ⟨e | us, last⟩
    · rw [first] at fails
      exact fails
    · rw [first] at fails
      contradiction
  | cons h before ih =>
    rw [runHandlers] at ran
    rw [List.cons_append, runHandlers]
    rcases first : runHandler h t start with ⟨e | us, between⟩
    · rw [first] at ran
      cases ran
    · rw [first] at ran
      dsimp only at ran ⊢
      rcases rest : runHandlers t before between with ⟨e | more, last⟩
      · rw [rest] at ran
        cases ran
      · rw [rest] at ran
        cases ran
        have fails := ih rest
        rcases whole : runHandlers t (before ++ .program name program :: after) between with
          ⟨e | us, last⟩
        · rw [whole] at fails
          exact fails
        · rw [whole] at fails
          contradiction

theorem fireFails {handlers : List Handler} {t : Token} {reads : Bool} {s : Scan} {e : Error}
    (fails : (runHandlers t handlers (fireFrame t reads s)).1 = .error e) :
    ∃ last, (fire handlers t reads).run.run s = (.error (.failed e), last) := by
  unfold fireFrame at fails
  rw [fire, runBind, runGet]
  dsimp only
  rw [runBind, runSet]
  dsimp only
  rw [fails]
  exact ⟨_, rfl⟩

theorem raisesFails {steps : Nat} {s : Scan} {o : Occasion} {f : Failure}
    (raises : Raises steps s o f) : (unit steps s).1 = .error (.failed (o.error f)) := by
  cases raises with
  | call performs raised =>
    obtain ⟨last, fails⟩ := callTransformerFails raised
    exact unitPerformsFails fails performs
  | handler performs ran raised =>
    obtain ⟨last, fails⟩ := fireFails (runHandlersFails raised _ ran)
    exact unitPerformsFails fails performs

end Scan

namespace Session

inductive Located : Except Stop (List Token) → Prop where
  | tokens (ts : List Token) : Located (.ok ts)
  | error {e : Error} {name : UnitName} (known : e.unitName = some name)
      (given : name.isGiven = true) : Located (.error (.failed e))

/- What the unit `title` makes of a failure. -/
def Surfaces (title : UnitName) (o : Scan.Occasion) (e : Error) : Failure → Prop
  | .fault _ => e.kind = .undefinedInvocation ∧ e.line = o.token.line ∧ e.unitName = some title
  | .error own =>
    e.cause = own.cause ∧ e.line = own.line ∧ e.unitName = some (own.ownUnit?.getD title)

theorem surfacesInUnit (title : UnitName) (o : Scan.Occasion) (f : Failure) :
    Surfaces title o ((o.error f).inUnit title) f := by
  cases f with
  | fault x => cases o <;> exact ⟨rfl, rfl, rfl⟩
  | error own => cases o <;> exact ⟨rfl, rfl, rfl⟩

theorem inUnitNamed (e : Error) {title : UnitName} (given : title.isGiven = true) :
    ∃ name, (e.inUnit title).unitName = some name ∧ name.isGiven = true := by
  refine ⟨_, rfl, ?_⟩
  cases own : e.ownUnit? with
  | none => exact given
  | some name => exact (Option.filter_eq_some_iff.mp own).2

theorem answerLocated {steps : Nat} {source : Source} {unitName : Option String} {s : Session}
    (admits : s.Admits source unitName)
    (ends : (Scan.unit steps (s.unitStart source unitName)).1 ≠ .error .starved) :
    Located (s.expandUnit steps source unitName).1 := by
  rw [expandUnitAnswer admits]
  rcases answer : (Scan.unit steps (s.unitStart source unitName)).1 with ((e | f) | _) | ts
  · obtain ⟨name, known, given⟩ := inUnitNamed e (titleGiven source unitName)
    exact .error known given
  · exact (Scan.unitThrows steps _ answer).elim
  · exact absurd answer ends
  · exact .tokens ts

-- Texts, tokens and files with a text for a name are admitted in every session; a file that has a
-- number for a name is not if there is a log.
theorem unitFailuresLocated {s : Session} {source : Source} {unitName : Option String}
    (admits : s.Admits source unitName) :
    ((∀ steps, (s.expandUnit steps source unitName).1 = .error .starved) ∨
      ∃ enough answer, Located answer ∧
        ∀ steps, enough ≤ steps → (s.expandUnit steps source unitName).1 = answer) ∧
    (∀ steps f, (Scan.unit steps (s.unitStart source unitName)).1 = .error (.failed f) →
      ∃ e : Error, f = e ∧ (s.expandUnit steps source unitName).1 =
        .error (.failed (e.inUnit (source.title unitName)))) ∧
    ∀ steps o f, Scan.Raises steps (s.unitStart source unitName) o f →
      ∃ e : Error, (s.expandUnit steps source unitName).1 = .error (.failed e) ∧
        Surfaces (source.title unitName) o e f := by
  refine ⟨?_, fun steps f fails => ?_, fun steps o f raises => ?_⟩
  · by_cases starves :
      ∀ steps, (Scan.unit steps (s.unitStart source unitName)).1 = .error .starved
    · refine .inl fun steps => ?_
      rw [expandUnitAnswer admits, starves steps]
    · obtain ⟨enough, ends⟩ := Classical.not_forall.mp starves
      refine .inr ⟨enough, _, answerLocated admits ends, fun steps many => ?_⟩
      rw [expandUnitAnswer admits, expandUnitAnswer admits, Scan.unitEnough ends many]
  · cases f with
    | fault x => exact (Scan.unitThrows steps _ fails).elim
    | error e => exact ⟨e, rfl, by rw [expandUnitAnswer admits, fails]⟩
  · refine ⟨_, ?_, surfacesInUnit (source.title unitName) o f⟩
    rw [expandUnitAnswer admits, Scan.raisesFails raises]

-- A call fails on the second line, inside the argument of a call of the same name on the first; and
-- a handler fails at a keyword, with an error that knows where it belongs.
theorem failuresLocatedInside :
    let word (kind : Kind) (value : String) (line : Int) (serial : Option (Nat × Nat)) : Token :=
      ⟨kind, value, some line, none, serial⟩
    let fault : Fault := .raised "ZeroDivisionError" "division by zero"
    let body : Transformer := ⟨"f", 0, fun _ => .fail (.fault fault)⟩
    let s : Session :=
      { registry := ({} : Registry).push ⟨"F", some ["x"], .callable body, 0, none⟩ }
    let source : Source := .tokens [word .iden "F" 1 none, word .op "(" 1 none,
      word .iden "F" 2 none, word .op "(" 2 none, word .op ")" 2 none, word .op ")" 3 none]
    let own : Error := ⟨.raised .typeMismatch "stop", some 7, some "other.lua"⟩
    let watched : Session :=
      ({} : Session).onKeyword "do" (.program "h" fun _ => .fail (.error own))
    (∃ e : Error, (s.expandUnit 3 source none).1 = .error (.failed e) ∧
      e.kind = .undefinedInvocation ∧ e.line = some 2 ∧ e.unitName = some "<string>") ∧
    ∃ e : Error, (watched.expandUnit 1 (.tokens [word .keyword "do" 1 none]) (some "u.lua")).1 =
        .error (.failed e) ∧
      e.cause = own.cause ∧ e.line = some 7 ∧ e.unitName = some "other.lua" := by
  intro word fault body s source own watched
  constructor
  · let d : Definition := ⟨"F", some ["x"], .callable body, 0, none⟩
    let call := Scan.callTransformer d body (word .iden "F" 2 (some (0, 1))) [[]]
      #[word .op "(" 2 (some (0, 2)), word .op ")" 2 (some (0, 3))]
    have isName : Literal.isName d.name = true := by decide +kernel
    have isOuter := Registry.matchPushed {} (t := word .iden "F" 1 none) rfl isName rfl
    have isInner := Registry.matchPushed {} (t := word .iden "F" 2 (some (0, 1))) rfl isName rfl
    obtain ⟨point, inner⟩ : ∃ point, Scan.Performs call point 2
        { session := { s.beginUnit "<string>" with fresh := 1 }
          cursor := .ofTokens [word .iden "F" 2 (some (0, 1)), word .op "(" 2 (some (0, 2)),
            word .op ")" 2 (some (0, 3))]
          nested := true } :=
      ⟨_, .now (Scan.nameBegins rfl rfl isInner
        (.next rfl (.next rfl (.next rfl (.next rfl .itself)))))⟩
    have outer : Scan.UnitPerforms call point 3 (s.unitStart source none) :=
      .run rfl (.inside (Scan.nameBegins rfl rfl isOuter
        (.next rfl (.next rfl (.first .itself)))) inner)
    exact (unitFailuresLocated (admitsNamed rfl s)).2.2 3 _ _ (.call outer rfl)
  · let fails : Token → Program := fun _ => .fail (.error own)
    have due : watched.blocks.handlersFor "do" = [.program "h" fails] := by
      simp [watched, fails, onKeyword, Blocks.onKeyword, Blocks.handlersFor]
    obtain ⟨point, fires⟩ : ∃ point, Scan.UnitPerforms
        (Scan.fire [.program "h" fails] (word .keyword "do" 1 none) true) point 1
        (watched.unitStart (.tokens [word .keyword "do" 1 none]) (some "u.lua")) :=
      ⟨_, .run rfl (.now (.next rfl (.first
        (.next rfl (.next rfl (.next rfl (Scan.keywordBegins due .itself)))))))⟩
    have raises := @Scan.Raises.handler _ _ [] "h" fails [] _ _ _ _ _ (.error own) fires rfl rfl
    exact (unitFailuresLocated (admitsNamed rfl watched)).2.2 1 _ _ raises

end Session

end LuaExpander
