import LuaExpander.Proofs.Balance

/-! Units in which no handler fires. A token that invokes no definition goes out as it is, and all
that such a unit can fail at is its blocks: at the first keyword that closes a block where none is
open, or at the end when blocks are still open. -/
namespace LuaExpander

namespace Tokens

/- The first keyword that closes a block where none is open. -/
def Unopened (ts : List Token) (t : Token) : Prop :=
  ∃ before after, ts = before ++ t :: after ∧ NeverBelow before ∧ level before = 0 ∧
    t.closesBlock = true

def Unclosed (ts : List Token) : Prop := NeverBelow ts ∧ 0 < level ts

theorem unopenedAppend {ts : List Token} {t : Token} (unopened : Unopened ts t)
    (more : List Token) : Unopened (ts ++ more) t := by
  obtain ⟨before, after, rfl, found⟩ := unopened
  exact ⟨before, after ++ more, by simp, found⟩

theorem unopenedUnbalanced {ts : List Token} {t : Token} (unopened : Unopened ts t) :
    ¬ Balanced ts := by
  obtain ⟨before, after, rfl, -, outside, closer⟩ := unopened
  rintro ⟨below, -⟩
  have fallen := below (before ++ [t]) ⟨after, by simp⟩
  rw [levelAppend, outside, levelCloser closer] at fallen
  omega

end Tokens

/- A token that invokes nothing when `ahead` comes after it. What had to be looked at to see that is
put back. -/
def Registry.Passes (r : Registry) (t : Token) (ahead : List Token) : Prop :=
  ∀ c : Cursor, c.ahead = ahead → c.failure = none →
    ∃ held c', r.find t c = (.ok ⟨none, held⟩, c') ∧ c'.ahead = ahead ∧ c'.failure = none

theorem Cursor.peekSucceeds {c : Cursor} (failure : c.failure = none) :
    ∃ first cursor, c.peek = (.ok first, cursor) ∧ cursor.ahead = c.ahead ∧
      cursor.failure = none := by
  have same := c.aheadPeek
  cases here : c.ahead with
  | cons t rest =>
    rw [peekToken here] at same ⊢
    exact ⟨_, _, rfl, same.trans here, (failureDrop 1 c).trans failure⟩
  | nil =>
    rw [peekNone here failure]
    exact ⟨_, _, rfl, here, failure⟩

namespace Scan
open Tokens

/- A scan of a unit with `ahead` to come and `out` given out. Nothing waits and no keyword has a
handler, so that the depth is all that blocks can change. -/
structure Ready (r : Registry) (ahead out : List Token) (s : Scan) : Prop where
  registry : s.session.registry = r
  words : ∀ word, s.session.blocks.handlersFor word = []
  waiting : ∀ depth, s.session.blocks.waiting depth = []
  depth : (s.session.blocks.depth : Int) = level out
  below : NeverBelow out
  ahead : s.cursor.ahead = ahead
  failure : s.cursor.failure = none
  out : s.out.toList = out
  unit : s.nested = false
  finishing : s.finishing = false

theorem fireKeywordNone {word : String} {t : Token} {s : Scan}
    (none : s.session.blocks.handlersFor word = []) :
    (fireKeyword word t).run.run s = (.ok (), s) := by
  rw [fireKeyword, runBind, runGet]
  dsimp only
  rw [none]
  rfl

theorem silentKeyword {word : String} {t : Token} {s s' : Scan}
    (silent : s.session.blocks.handlersFor word = [])
    (ran : (fireKeyword word t).run.run s = (.ok (), s')) : s' = s := by
  rw [fireKeywordNone silent] at ran
  cases ran
  rfl

theorem readyMoved {r : Registry} {ahead ahead' out : List Token} {s : Scan} {session : Session}
    {cursor : Cursor} (ready : Ready r ahead out s) (quiet : Session.Quiet s.session session)
    (moved : cursor.ahead = ahead') (failure : cursor.failure = none) :
    Ready r ahead' out { s with session, cursor } where
  registry := quiet.registry.trans ready.registry
  words := by
    rw [quiet.blocks]
    exact ready.words
  waiting := by
    rw [quiet.blocks]
    exact ready.waiting
  depth := by
    rw [quiet.blocks]
    exact ready.depth
  below := ready.below
  ahead := moved
  failure := failure
  out := ready.out
  unit := ready.unit
  finishing := ready.finishing

theorem readyPush {r : Registry} {ahead out : List Token} {s : Scan} {t : Token} {session : Session}
    (ready : Ready r ahead out s) (registry : session.registry = s.session.registry)
    (keywords : session.blocks.keywords = s.session.blocks.keywords)
    (waiting : ∀ depth, session.blocks.waiting depth = [])
    (depth : (session.blocks.depth : Int) = s.session.blocks.depth + level [t]) :
    Ready r ahead (out ++ [t]) { s with session, out := s.out.push t } := by
  have levels : (session.blocks.depth : Int) = level (out ++ [t]) := by
    rw [levelAppend, ← ready.depth, depth]
  exact {
    registry := registry.trans ready.registry
    words := fun word => by
      rw [Blocks.handlersFor, keywords]
      exact ready.words word
    waiting := waiting
    depth := levels
    below := neverBelowSnoc ready.below (by omega)
    ahead := ready.ahead
    failure := ready.failure
    out := by rw [Array.toList_push, ready.out]
    unit := ready.unit
    finishing := ready.finishing }

theorem plainPasses {r : Registry} {rest out : List Token} {s : Scan} {t : Token}
    (ready : Ready r rest out s) (passes : r.Passes t rest) (kind : t.kind ≠ .keyword) :
    ∃ s', Ready r rest (out ++ [t]) s' ∧ s'.session.fresh = s.session.fresh ∧
      ∀ expand, (plain expand t).run.run s = (.ok (), s') := by
  obtain ⟨held, cursor, found, same, failure⟩ := passes s.cursor ready.ahead ready.failure
  have moved := readyMoved ready (logHeldQuiet t held s.session) same failure
  refine ⟨_, readyPush moved rfl rfl moved.waiting ?_, logHeldFresh t held s.session, ?_⟩
  · rw [levelInert (inertOfKind kind), Int.add_zero]
  · intro expand
    rw [plain, runBind, runGet]
    dsimp only
    rw [ready.registry, found]
    rfl

/- A token is given out, unless it closes a block where none is open. No number is used up. -/
inductive Given {α : Type} (r : Registry) (rest out : List Token) (fresh : Nat) (t : Token)
    (done : α) : Except Stop α × Scan → Prop where
  | goes {s} (ready : Ready r rest (out ++ [t]) s) (still : s.session.fresh = fresh) :
      Given r rest out fresh t done (.ok done, s)
  | breaks {e : Error} {s} (unopened : Unopened (out ++ [t]) t) (cause : e.kind = .unbalancedBlock)
      (line : e.line = t.line) (registry : s.session.registry = r) :
      Given r rest out fresh t done (.error (.failed e), s)

theorem keywordOfUnit {s : Scan} (t : Token) (unit : s.nested = false) :
    (keyword t).run.run s =
      (if t.opensBlock then openBlock t else if t.closesBlock then closeBlock t
        else fireKeyword t.value t).run.run { s with out := s.out.push t } := by
  rw [keyword, runBind, emit, runModify]
  dsimp only
  rw [runBind, runGet]
  dsimp only
  rw [if_neg (by simp [unit])]

theorem openRuns {r : Registry} {rest out : List Token} {s : Scan} {t : Token}
    (ready : Ready r rest out s) (opener : t.opensBlock = true) :
    Given r rest out s.session.fresh t () ((keyword t).run.run s) := by
  have entered := Session.enterBlockBlocks t s.session
  have after := readyPush (t := t) ready (Session.enterBlockRegistry t s.session)
    (by rw [entered]; rfl) (by rw [entered]; exact ready.waiting)
    (by rw [entered, levelOpener opener]; rfl)
  rw [keywordOfUnit t ready.unit, if_pos opener, openBlock, runBind, inSession, runModify]
  dsimp only
  rw [fireKeywordNone (after.words t.value)]
  exact .goes after (Session.enterBlockFresh t s.session)

theorem closeRuns {r : Registry} {rest out : List Token} {s : Scan} {t : Token}
    (ready : Ready r rest out s) (closer : t.closesBlock = true) :
    Given r rest out s.session.fresh t () ((keyword t).run.run s) := by
  have notOpener := closesNotOpens closer
  rw [keywordOfUnit t ready.unit, if_neg (by simp [notOpener]), if_pos closer, closeBlock, runBind,
    runGet]
  dsimp only
  rw [runBind]
  cases left : s.session.leaveBlock t with
  | error e =>
    have refused := Session.leaveBlockFails left
    have outside := Blocks.leaveFails refused
    have unopened : Unopened (out ++ [t]) t :=
      ⟨out, [], rfl, ready.below, by rw [← ready.depth, outside]; rfl, closer⟩
    rw [Blocks.leave, outside] at refused
    cases refused
    exact .breaks unopened rfl rfl ready.registry
  | ok pair =>
    obtain ⟨handlers, session⟩ := pair
    obtain ⟨inner, registry⟩ := Session.leaveBlockSucceeds left
    obtain ⟨depth, none, keywords, waiting⟩ := Blocks.leaveSucceeds inner
    rw [ready.waiting] at none
    subst none
    have after := readyPush (t := t) ready registry keywords
      (fun depth => by rw [waiting, ready.waiting, ite_self])
      (by rw [levelCloser closer]; omega)
    change Given r rest out s.session.fresh t () ((fireKeyword t.value t).run.run
      { s with session, out := s.out.push t })
    rw [fireKeywordNone (after.words t.value)]
    exact .goes after (Session.leaveBlockFresh left)

theorem keywordRuns {r : Registry} {rest out : List Token} {s : Scan} (t : Token)
    (ready : Ready r rest out s) : Given r rest out s.session.fresh t () ((keyword t).run.run s) := by
  cases opener : t.opensBlock with
  | true => exact openRuns ready opener
  | false =>
    cases closer : t.closesBlock with
    | true => exact closeRuns ready closer
    | false =>
      have after := readyPush ready rfl rfl ready.waiting
        (by rw [levelInert ⟨opener, closer⟩, Int.add_zero])
      rw [keywordOfUnit t ready.unit, if_neg (by simp [opener]), if_neg (by simp [closer]),
        fireKeywordNone (after.words t.value)]
      exact .goes after rfl

theorem stepTakes {s : Scan} {t : Token} {rest : List Token} (ahead : s.cursor.ahead = t :: rest)
    (expand : ArgumentExpander) :
    (step expand).run.run s =
      (match t.kind with
        | .eof => atEnd t
        | .keyword => do
          keyword t
          return false
        | _ => do
          plain expand t
          return false).run.run
        { s with cursor := s.cursor.drop 1 } := by
  have bound : (step expand).run.run s = _ := runBind _ _ s
  rw [nextHead ahead] at bound
  exact bound

theorem readyTaken {r : Registry} {rest out : List Token} {s : Scan} {t : Token}
    (ready : Ready r (t :: rest) out s) : Ready r rest out
      { s with cursor := s.cursor.drop 1 } :=
  readyMoved ready (.refl _) (by simp [ready.ahead]) ((Cursor.failureDrop _ _).trans ready.failure)

theorem passRuns {r : Registry} {rest out : List Token} {s : Scan} {t : Token}
    (ready : Ready r (t :: rest) out s) (passes : r.Passes t rest) (notEnd : t.kind ≠ .eof) :
    ∃ answer, Given r rest out s.session.fresh t false answer ∧
      ∀ expand, (step expand).run.run s = answer := by
  have taken := readyTaken ready
  by_cases kind : t.kind = .keyword
  · have given := keywordRuns t taken
    rcases ran : (keyword t).run.run
      { s with cursor := s.cursor.drop 1 } with
      ⟨answer, s'⟩
    rw [ran] at given
    cases given with
    | goes after still =>
      refine ⟨_, .goes after still, fun expand => ?_⟩
      rw [stepTakes ready.ahead, kind]
      dsimp only
      rw [runBind, ran]
      rfl
    | @breaks e _ unopened cause line registry =>
      refine ⟨(.error (.failed e), s'), .breaks unopened cause line registry, fun expand => ?_⟩
      rw [stepTakes ready.ahead, kind]
      dsimp only
      rw [runBind, ran]
  · obtain ⟨s', after, still, ran⟩ := plainPasses taken passes kind
    refine ⟨_, .goes after still, fun expand => ?_⟩
    rw [stepTakes ready.ahead]
    split
    · contradiction
    · contradiction
    · rw [runBind, ran]
      rfl

def Reaches (s s' : Scan) : Prop := ∃ k, ∀ n, run (n + k) s = run n s'

/- The run fails at blocks that are not balanced, at a token on `line`. -/
def Unbalances (r : Registry) (line : Line) (s : Scan) : Prop :=
  ∃ k, ∃ e : Error, ∃ s', e.kind = .unbalancedBlock ∧ e.line = line ∧ s'.session.registry = r ∧
    ∀ n, run (n + k) s = (.error (.failed e), s')

theorem stepReaches {s s' : Scan}
    (ran : ∀ expand, (step expand).run.run s = (.ok false, s')) : Reaches s s' := by
  refine ⟨1, fun n => ?_⟩
  rw [run, ran]

theorem stepUnbalances {r : Registry} {line : Line} {s s' : Scan} {e : Error}
    (cause : e.kind = .unbalancedBlock) (place : e.line = line) (registry : s'.session.registry = r)
    (ran : ∀ expand, (step expand).run.run s = (.error (.failed e), s')) :
    Unbalances r line s := by
  refine ⟨1, e, s', cause, place, registry, fun n => ?_⟩
  rw [run, ran]

theorem reachesTrans {a b c : Scan} (first : Reaches a b) (second : Reaches b c) : Reaches a c := by
  obtain ⟨k, hk⟩ := first
  obtain ⟨l, hl⟩ := second
  refine ⟨l + k, fun n => ?_⟩
  rw [← Nat.add_assoc, hk, hl]

theorem reachesUnbalances {r : Registry} {line : Line} {a b : Scan} (first : Reaches a b)
    (second : Unbalances r line b) : Unbalances r line a := by
  obtain ⟨k, hk⟩ := first
  obtain ⟨l, e, s', cause, place, registry, hl⟩ := second
  refine ⟨l + k, e, s', cause, place, registry, fun n => ?_⟩
  rw [← Nat.add_assoc, hk, hl]

/- From a scan with tokens to come that stand for `more`, and then `rest`. -/
inductive Scanned (r : Registry) (rest out more : List Token) (s : Scan) : Prop where
  | passes {s'} (reaches : Reaches s s') (ready : Ready r rest (out ++ more) s')
  | breaks {t} (unopened : Unopened (out ++ more) t) (fails : Unbalances r t.line s)

theorem scannedNone {r : Registry} {rest out : List Token} {s : Scan} (ready : Ready r rest out s) :
    Scanned r rest out [] s :=
  .passes ⟨0, fun _ => rfl⟩ (by rwa [List.append_nil])

theorem scannedAfter {r : Registry} {rest out more : List Token} {s s' : Scan}
    (reaches : Reaches s s') (later : Scanned r rest out more s') : Scanned r rest out more s := by
  cases later with
  | passes further ready => exact .passes (reachesTrans reaches further) ready
  | breaks unopened fails => exact .breaks unopened (reachesUnbalances reaches fails)

theorem scannedThen {r : Registry} {mid rest out first second : List Token} {s : Scan}
    (here : Scanned r mid out first s)
    (later : ∀ s', Ready r mid (out ++ first) s' → Scanned r rest (out ++ first) second s') :
    Scanned r rest out (first ++ second) s := by
  cases here with
  | breaks unopened fails =>
    refine .breaks ?_ fails
    rw [← List.append_assoc]
    exact unopenedAppend unopened second
  | passes reaches ready =>
    refine scannedAfter reaches ?_
    cases later _ ready with
    | breaks unopened fails => exact .breaks (by rwa [← List.append_assoc]) fails
    | passes further ready => exact .passes further (by rwa [← List.append_assoc])

theorem passScans {r : Registry} {rest out : List Token} {s : Scan} {t : Token}
    (ready : Ready r (t :: rest) out s) (passes : r.Passes t rest) (notEnd : t.kind ≠ .eof) :
    Scanned r rest out [t] s := by
  obtain ⟨answer, given, ran⟩ := passRuns ready passes notEnd
  cases given with
  | goes after => exact .passes (stepReaches ran) after
  | breaks unopened cause line registry =>
    exact .breaks unopened (stepUnbalances cause line registry ran)

theorem stepEnds {ending : List Token} {s : Scan} {e : Token} (ahead : s.cursor.ahead = ending)
    (failure : s.cursor.failure = none) (unit : s.nested = false) (kind : e.kind = .eof)
    (isEnd : ending = [] ∧ e = missingEnd s.out ∨ ending = [e]) :
    ∃ cursor : Cursor, cursor.ahead = [] ∧ ∀ expand,
      (step expand).run.run s = (atEnd e).run.run { s with cursor } := by
  rcases isEnd with ⟨rfl, rfl⟩ | rfl
  · refine ⟨s.cursor, ahead, fun expand => ?_⟩
    rw [step, runBind, nextEnd ahead failure]
    dsimp only
    rw [runBind, runGet]
    dsimp only
    rw [if_neg (by simp [unit])]
  · refine ⟨s.cursor.drop 1, by simp [ahead], fun expand => ?_⟩
    rw [stepTakes ahead, kind]

theorem endUnbalances {r : Registry} {ending out : List Token} {s : Scan} {e : Token}
    (ready : Ready r ending out s) (kind : e.kind = .eof)
    (isEnd : ending = [] ∧ e = missingEnd s.out ∨ ending = [e]) (inside : level out ≠ 0) :
    Unbalances r e.line s := by
  have depth := ready.depth
  obtain ⟨cursor, -, ran⟩ := stepEnds ready.ahead ready.failure ready.unit kind isEnd
  have refused : s.session.blocks.finish e =
      .error (.atToken (.unclosedBlocks s.session.blocks.depth) e) := by
    rw [Blocks.finish, if_neg (by omega)]
  have fails (expand : ArgumentExpander) : (step expand).run.run s =
      (.error (.failed (Error.atToken (.unclosedBlocks s.session.blocks.depth) e)),
        { s with cursor, finishing := true }) := by
    rw [ran, atEnd, runBind, runGet]
    dsimp only
    rw [if_neg (by simp [ready.finishing]), runBind, runSet]
    dsimp only
    rw [refused]
    rfl
  refine stepUnbalances ?_ ?_ ?_ fails
  · rfl
  · rfl
  · exact ready.registry

theorem endBegins {s : Scan} {e : Token} {cursor : Cursor} (ahead : cursor.ahead = [])
    (words : ∀ word, s.session.blocks.handlersFor word = [])
    (waiting : ∀ depth, s.session.blocks.waiting depth = []) (finishing : s.finishing = false)
    (outside : s.session.blocks.depth = 0) :
    ∃ (cursor' : Cursor) (blocks : Blocks Handler), cursor'.ahead = [e] ∧
      blocks.checkFinished e = .ok () ∧ (atEnd e).run.run { s with cursor } =
        (.ok false, { s with session := { s.session with blocks }, cursor := cursor',
                             finishing := true }) := by
  obtain ⟨blocks, finished, still, keywords, none⟩ := Blocks.finishNone e outside waiting
  have silent : blocks.handlersFor "END" = [] := by
    rw [Blocks.handlersFor, keywords]
    exact words "END"
  refine ⟨cursor.prepend [e], blocks, ?_, ?_, ?_⟩
  · rw [Cursor.aheadPrepend, ahead]
    rfl
  · exact (Blocks.checkFinishedOk e blocks).mpr ⟨still, none⟩
  · rw [atEnd, runBind, runGet]
    dsimp only
    rw [if_neg (by simp [finishing]), runBind, runSet]
    dsimp only
    rw [finished, runBind, liftBlocks, runPure]
    dsimp only
    rw [runBind, inSession, runModify]
    dsimp only
    rw [runBind, prepend, runModify]
    dsimp only
    rw [runBind, fireKeywordNone silent]
    rfl

theorem endCloses {s : Scan} {e : Token} (ahead : s.cursor.ahead = [e]) (kind : e.kind = .eof)
    (finishing : s.finishing = true) (checked : s.session.blocks.checkFinished e = .ok ()) :
    ∃ s', s'.out = s.out.push e ∧ s'.session = s.session ∧
      ∀ expand, (step expand).run.run s = (.ok true, s') := by
  refine ⟨{ s with cursor := s.cursor.drop 1,
                   out := s.out.push e }, rfl, rfl, fun expand => ?_⟩
  rw [stepTakes ahead, kind]
  dsimp only
  rw [atEnd, runBind, runGet]
  dsimp only
  rw [if_pos finishing, checked]
  rfl

/- The unit is over where no block is open and nothing waits. -/
theorem endCompletes {ending : List Token} {s : Scan} {e : Token} (ahead : s.cursor.ahead = ending)
    (failure : s.cursor.failure = none) (unit : s.nested = false) (kind : e.kind = .eof)
    (isEnd : ending = [] ∧ e = missingEnd s.out ∨ ending = [e])
    (words : ∀ word, s.session.blocks.handlersFor word = [])
    (waiting : ∀ depth, s.session.blocks.waiting depth = []) (finishing : s.finishing = false)
    (outside : s.session.blocks.depth = 0) :
    ∃ (s' : Scan) (blocks : Blocks Handler), s'.session = { s.session with blocks } ∧
      blocks.checkFinished e = .ok () ∧
      ∀ n, run (n + 2) s = (.ok (s.out.toList ++ [e]), s') := by
  obtain ⟨cursor, empty, ran⟩ := stepEnds ahead failure unit kind isEnd
  obtain ⟨cursor', blocks, back, checked, first⟩ :=
    @endBegins s e cursor empty words waiting finishing outside
  obtain ⟨last, pushed, session, second⟩ := endCloses
    (s := { s with session := { s.session with blocks }, cursor := cursor', finishing := true })
    back kind rfl checked
  refine ⟨last, blocks, session, checked, fun n => ?_⟩
  rw [run, ran, first]
  dsimp only
  rw [run, second]
  dsimp only
  rw [pushed, Array.toList_push]

theorem endReturns {r : Registry} {ending out : List Token} {s : Scan} {e : Token}
    (ready : Ready r ending out s) (kind : e.kind = .eof)
    (isEnd : ending = [] ∧ e = missingEnd s.out ∨ ending = [e]) (outside : level out = 0) :
    ∃ s', s'.session.registry = r ∧ ∀ n, run (n + 2) s = (.ok (out ++ [e]), s') := by
  have depth := ready.depth
  obtain ⟨s', blocks, session, -, returns⟩ := endCompletes ready.ahead ready.failure ready.unit kind
    isEnd ready.words ready.waiting ready.finishing (by omega)
  refine ⟨s', by rw [session]; exact ready.registry, fun n => ?_⟩
  rw [returns, ready.out]

/-! Units -/

theorem beginPeeks {s : Scan} (silent : s.session.blocks.handlersFor "BEGIN" = [])
    {first : Option Token} {cursor : Cursor} (peeked : s.cursor.peek = (.ok first, cursor)) :
    begin.run.run s = (.ok (), { s with cursor }) := by
  rw [begin, runBind, runGet]
  dsimp only
  rw [silent, if_neg (by simp), fireBegin, runBind, runGet]
  dsimp only
  rw [peeked, runBind, runSet]
  dsimp only
  rw [runBind, liftBlocks, runPure]
  exact fireKeywordNone silent

theorem beginMoves {s : Scan} (silent : s.session.blocks.handlersFor "BEGIN" = [])
    (failure : s.cursor.failure = none) :
    ∃ cursor : Cursor, cursor.ahead = s.cursor.ahead ∧ cursor.failure = none ∧
      begin.run.run s = (.ok (), { s with cursor }) := by
  obtain ⟨first, cursor, peeked, same, still⟩ := Cursor.peekSucceeds failure
  exact ⟨cursor, same, still, beginPeeks silent peeked⟩

theorem beginRuns {r : Registry} {ahead out : List Token} {s : Scan} (ready : Ready r ahead out s) :
    ∃ s', Ready r ahead out s' ∧ s'.session = s.session ∧ begin.run.run s = (.ok (), s') := by
  obtain ⟨cursor, same, failure, ran⟩ := beginMoves (ready.words "BEGIN") ready.failure
  exact ⟨_, readyMoved ready (.refl s.session) (same.trans ready.ahead) failure, rfl, ran⟩

theorem startReady {s : Session} (quiet : ∀ word, s.blocks.handlersFor word = [])
    {source : Source} (failure : source.cursor.failure = none) (unitName : Option String) :
    Ready s.registry source.cursor.ahead [] (s.unitStart source unitName) where
  registry := Session.beginUnitRegistry (source.title unitName) s
  words word := by
    rw [Session.unitStart, Session.beginUnitBlocks]
    exact quiet word
  waiting depth := by
    rw [Session.unitStart, Session.beginUnitBlocks]
    exact Blocks.waitingReset s.blocks depth
  depth := by
    rw [Session.unitStart, Session.beginUnitBlocks]
    rfl
  below := neverBelowNil
  ahead := rfl
  failure := failure
  out := rfl
  unit := rfl
  finishing := rfl

/- How a unit ends whose tokens stand for `out`, with `last` for its end. -/
inductive Outcome (out : List Token) (last : Token) : Except Stop (List Token) → Prop where
  | returns (balanced : Balanced out) : Outcome out last (.ok (out ++ [last]))
  | fails {e : Error} {t} (culprit : Unopened out t ∨ Unclosed out ∧ t = last)
      (cause : e.kind = .unbalancedBlock) (line : e.line = t.line) :
      Outcome out last (.error (.failed e))

theorem Outcome.ofBalanced {out : List Token} {last : Token} {answer : Except Stop (List Token)}
    (outcome : Outcome out last answer) (balanced : Balanced out) :
    answer = .ok (out ++ [last]) := by
  cases outcome with
  | returns => rfl
  | fails culprit =>
    rcases culprit with unopened | ⟨⟨-, inside⟩, -⟩
    · exact absurd balanced (unopenedUnbalanced unopened)
    · have := balanced.2
      omega

theorem Outcome.ofUnbalanced {out : List Token} {last : Token} {answer : Except Stop (List Token)}
    (outcome : Outcome out last answer) (unbalanced : ¬ Balanced out) :
    ∃ e : Error, ∃ t, answer = .error (.failed e) ∧ e.kind = .unbalancedBlock ∧
      e.line = t.line ∧ (Unopened out t ∨ Unclosed out ∧ t = last) := by
  cases outcome with
  | returns balanced => exact absurd balanced unbalanced
  | fails culprit cause line => exact ⟨_, _, rfl, cause, line, culprit⟩

theorem endKind {ending : List Token} (isEnd : ending = [] ∨ ∃ e, ending = [e] ∧ e.kind = .eof)
    (out : Array Token) : (ending.headD (missingEnd out)).kind = .eof := by
  rcases isEnd with rfl | ⟨e, rfl, kind⟩
  · rfl
  · exact kind

theorem scannedEnds {r : Registry} {ending out : List Token} {s : Scan}
    (scanned : Scanned r ending [] out s)
    (isEnd : ending = [] ∨ ∃ e, ending = [e] ∧ e.kind = .eof) :
    let last := ending.headD (missingEnd out.toArray)
    (∃ k s', Balanced out ∧ s'.session.registry = r ∧
      ∀ n, run (n + k) s = (.ok (out ++ [last]), s')) ∨
    ∃ t, (Unopened out t ∨ Unclosed out ∧ t = last) ∧ Unbalances r t.line s := by
  intro last
  cases scanned with
  | breaks unopened fails => exact .inr ⟨_, .inl unopened, fails⟩
  | @passes s' reaches ready =>
    have given : s'.out = out.toArray := Array.ext' ready.out
    have kind : last.kind = .eof := endKind isEnd out.toArray
    have reachesEnd : ending = [] ∧ last = missingEnd s'.out ∨ ending = [last] := by
      rcases isEnd with rfl | ⟨e, rfl, kind⟩
      · exact .inl ⟨rfl, by rw [given]; rfl⟩
      · exact .inr rfl
    have above : 0 ≤ level out := ready.below out (List.prefix_refl _)
    by_cases outside : level out = 0
    · obtain ⟨k, first⟩ := reaches
      obtain ⟨final, registry, second⟩ := endReturns ready kind reachesEnd outside
      refine .inl ⟨2 + k, final, ⟨ready.below, outside⟩, registry, fun n => ?_⟩
      rw [← Nat.add_assoc, first, second]
      rfl
    · have fails := endUnbalances ready kind reachesEnd outside
      exact .inr ⟨last, .inr ⟨⟨ready.below, by omega⟩, rfl⟩, reachesUnbalances reaches fails⟩

end Scan

namespace Session
open Tokens

theorem expandUnitReturns {steps : Nat} {source : Source} {unitName : Option String} {s : Session}
    {ts : List Token} {last : Scan} (admits : s.Admits source unitName)
    (ran : Scan.unit steps (s.unitStart source unitName) = (.ok ts, last)) :
    (s.expandUnit steps source unitName).1 = .ok ts ∧
      (s.expandUnit steps source unitName).2.registry = last.session.registry := by
  rw [expandUnitAdmitted admits, ran]
  exact ⟨rfl, rfl⟩

theorem expandUnitFails {steps : Nat} {source : Source} {unitName : Option String} {s : Session}
    {e : Error} {last : Scan} (admits : s.Admits source unitName)
    (ran : Scan.unit steps (s.unitStart source unitName) = (.error (.failed e), last)) :
    (∃ name, (s.expandUnit steps source unitName).1 = .error (.failed (e.inUnit name))) ∧
      (s.expandUnit steps source unitName).2.registry = last.session.registry := by
  rw [expandUnitAdmitted admits, ran]
  exact ⟨⟨_, rfl⟩, (closeUnitQuiet _ _).registry⟩

theorem unitEnds {s : Session} (quiet : ∀ word, s.blocks.handlersFor word = []) (source : Source)
    (failure : source.cursor.failure = none) {ending out : List Token}
    (isEnd : ending = [] ∨ ∃ e, ending = [e] ∧ e.kind = .eof)
    (scans : ∀ start, Scan.Ready s.registry source.cursor.ahead [] start →
      Scan.Scanned s.registry ending [] out start) {unitName : Option String}
    (admits : s.Admits source unitName) :
    ∃ enough, ∀ steps, enough ≤ steps →
      let after := s.expandUnit steps source unitName
      Scan.Outcome out (ending.headD (Scan.missingEnd out.toArray)) after.1 ∧
        after.2.registry = s.registry := by
  obtain ⟨start, began, -, ran⟩ := Scan.beginRuns (Scan.startReady quiet failure unitName)
  have whole (steps : Nat) : Scan.unit steps (s.unitStart source unitName) =
      Scan.run steps start := by
    rw [Scan.unit, ran]
  rcases Scan.scannedEnds (scans start began) isEnd with
    ⟨k, final, balanced, registry, returns⟩ | ⟨t, culprit, k, e, final, cause, line, registry, fails⟩
  · refine ⟨k, fun steps enough => ?_⟩
    have finished := returns (steps - k)
    rw [Nat.sub_add_cancel enough, ← whole] at finished
    obtain ⟨answer, same⟩ := expandUnitReturns admits finished
    dsimp only
    rw [answer, same]
    exact ⟨.returns balanced, registry⟩
  · refine ⟨k, fun steps enough => ?_⟩
    have failed := fails (steps - k)
    rw [Nat.sub_add_cancel enough, ← whole] at failed
    obtain ⟨⟨name, answer⟩, same⟩ := expandUnitFails admits failed
    dsimp only
    rw [answer, same]
    exact ⟨.fails culprit cause line, registry⟩

end Session

end LuaExpander
